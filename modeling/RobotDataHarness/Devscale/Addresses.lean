import RobotDataHarness.Devscale.Selection
import RobotDataHarness.Devscale.SlashRuns

/-!
# What a devscale plan addresses

The objects below the source of a dataset, as a listing gives them: by their keys, or by what
follows the prefix in them. `_read_mc_objects` tells the two apart by whether a key begins with the
text of the prefix, and `cmd_plan` puts the URI an object is copied from together again.

- `srcUri_file_eq_iff`: when this is the URI of the object;
- `files_planEntry`: the files of a plan are those of listed objects;
- `planAddresses_iff`: when every plan addresses the objects that are listed.
-/

namespace RobotDataHarness.Devscale

open Library Etl

/-- How the keys of a listing are given. -/
inductive KeyStyle where
  | full
  | relative

/-- An object below the source: what follows the prefix in its key. -/
structure SourceObject where
  tail : Text
  size : ℤ

namespace SourceObject

variable (bucket pfx : Text) (style : KeyStyle) (target : PurePath) (o : SourceObject)

/-- The key in the bucket. -/
def key : Text := if pfx = [] then o.tail else pfx ++ '/' :: o.tail

def uri : Text := "s3://".toList ++ bucket ++ '/' :: o.key pfx

/-- The key in the listing. -/
def rawKey : Text :=
  match style with
  | .full => o.key pfx
  | .relative => o.tail

/-- The line of the listing. -/
def line : McObject := ⟨"success".toList, "file".toList, o.rawKey pfx style, o.size⟩

/-- The parts of the path below the target. -/
def parts : List String := pathParts (String.ofList o.tail)

end SourceObject

/-- The prefix without the slashes around it. -/
def normPrefix (pfx : Text) : Text := lstripSlash (rstripSlash pfx)

/-- What `_read_mc_objects` leaves of a key. -/
def relKeyOf (pfx rawKey : Text) : Text :=
  lstripSlash (if normPrefix pfx ≠ [] ∧ normPrefix pfx <+: rawKey then
    rawKey.drop (normPrefix pfx).length else rawKey)

namespace SourceObject

variable (bucket pfx : Text) (style : KeyStyle) (target : PurePath) (o : SourceObject)

/-- The object, as `_read_mc_objects` keeps it. -/
def item : ListedObject := ⟨relKeyOf pfx (o.rawKey pfx style), o.size⟩

/-- The file that is planned for the object. -/
def file : PlanFile := planFile bucket pfx target (o.item pfx style)

/-- Nothing but slashes is left of the key, so the object is not planned. -/
def Skipped : Prop :=
  match style with
  | .full => pfx.head? ≠ some '/' ∧ ∀ c ∈ o.tail, c = '/'
  | .relative => (∀ c ∈ o.tail, c = '/') ∨
    pfx ≠ [] ∧ ∃ rest, o.tail = normPrefix pfx ++ rest ∧ ∀ c ∈ rest, c = '/'

end SourceObject

/-- The files of some objects address them. -/
structure Addresses (bucket pfx : Text) (style : KeyStyle) (target : PurePath)
    (objs : List SourceObject) : Prop where
  source : ∀ o ∈ objs, (o.file bucket pfx style target).srcUri = o.uri bucket pfx
  relKey : ∀ o ∈ objs, ∀ o' ∈ objs, o.tail ≠ o'.tail →
    (o.file bucket pfx style target).relKey ≠ (o'.file bucket pfx style target).relKey
  srcUri : ∀ o ∈ objs, ∀ o' ∈ objs, o.tail ≠ o'.tail →
    (o.file bucket pfx style target).srcUri ≠ (o'.file bucket pfx style target).srcUri
  dstPath : ∀ o ∈ objs, ∀ o' ∈ objs, o.tail ≠ o'.tail →
    (o.file bucket pfx style target).dstPath ≠ (o'.file bucket pfx style target).dstPath
  below : ∀ o ∈ objs, target.place <+:
      (PurePath.ofText (String.ofList (o.file bucket pfx style target).dstPath)).place ∧
    target.place ≠
      (PurePath.ofText (String.ofList (o.file bucket pfx style target).dstPath)).place

/-- The keys that hold the prefix begin with its text, and no others do. -/
def PrefixFits (pfx : Text) (style : KeyStyle) (o : SourceObject) : Prop :=
  match style with
  | .full => pfx.head? ≠ some '/'
  | .relative => pfx = [] ∨ ¬normPrefix pfx <+: o.tail

/-- The key of an object survives being taken apart and put together. -/
structure Addressable (bucket pfx : Text) (style : KeyStyle) (o : SourceObject) : Prop where
  fits : PrefixFits pfx style o
  slashes : ¬['/', '/'] <+: o.tail
  runs : SettledRuns (o.uri bucket pfx)
  stays : staysBelow 0 o.parts = true
  leads : resolve [] o.parts ≠ []

/-! ## One object -/

section Object

variable {bucket pfx : Text} {style : KeyStyle} {target : PurePath} {o o' : SourceObject}

theorem normPrefix_of_head (hpfx : pfx.getLast? ≠ some '/') (h : pfx.head? ≠ some '/') :
    normPrefix pfx = pfx := by
  rw [normPrefix, rstripSlash_of_last hpfx, lstripSlash_of_head h]

theorem normPrefix_ne_nil (hpfx : pfx.getLast? ≠ some '/') (hne : pfx ≠ []) :
    normPrefix pfx ≠ [] := by
  rw [normPrefix, rstripSlash_of_last hpfx, Ne, lstripSlash_eq_nil_iff]
  intro hall
  refine hpfx ?_
  rw [List.getLast?_eq_some_getLast hne, hall _ (List.getLast_mem hne)]

theorem head?_normPrefix (pfx : Text) : (normPrefix pfx).head? ≠ some '/' := head?_lstripSlash _

theorem filter_normPrefix (hpfx : pfx.getLast? ≠ some '/') :
    (normPrefix pfx).filter (· ≠ '/') = pfx.filter (· ≠ '/') := by
  rw [normPrefix, rstripSlash_of_last hpfx, filter_lstripSlash]

theorem filter_normPrefix_ne_nil (hpfx : pfx.getLast? ≠ some '/') (hne : pfx ≠ []) :
    (normPrefix pfx).filter (· ≠ '/') ≠ [] := by
  rw [filter_normPrefix hpfx, Ne, List.filter_eq_nil_iff]
  intro hall
  refine hpfx ?_
  have hslash : pfx.getLast hne = '/' := by simpa using hall _ (List.getLast_mem hne)
  rw [List.getLast?_eq_some_getLast hne, hslash]

theorem relKeyOf_of_not_prefix {raw : Text} (h : ¬(normPrefix pfx ≠ [] ∧ normPrefix pfx <+: raw)) :
    relKeyOf pfx raw = lstripSlash raw := by
  rw [relKeyOf, if_neg h]

/-- A key that begins with a slash does not begin with the stripped prefix. -/
theorem relKeyOf_of_head (hhead : pfx.head? = some '/') (rest : Text) :
    relKeyOf pfx (pfx ++ rest) = lstripSlash (pfx ++ rest) := by
  refine relKeyOf_of_not_prefix ?_
  rintro ⟨hnorm, hfront⟩
  obtain ⟨c, cs, hcs⟩ := List.exists_cons_of_ne_nil hnorm
  cases pfx with
  | nil => cases hhead
  | cons d ds =>
    rw [hcs] at hfront
    have hcd : c = d := (List.cons_prefix_cons.mp hfront).1
    refine head?_normPrefix (d :: ds) ?_
    rw [hcs, hcd]
    exact hhead

theorem relKeyOf_append (hne : normPrefix pfx ≠ []) (rest : Text) :
    relKeyOf pfx (normPrefix pfx ++ rest) = lstripSlash rest := by
  rw [relKeyOf, if_pos ⟨hne, List.prefix_append _ _⟩, List.drop_left]

theorem relKeyOf_of_prefixFits (hpfx : pfx.getLast? ≠ some '/') (h : PrefixFits pfx style o) :
    relKeyOf pfx (o.rawKey pfx style) = lstripSlash o.tail := by
  cases style with
  | full =>
    by_cases hne : pfx = []
    · rw [SourceObject.rawKey, SourceObject.key, if_pos hne]
      refine relKeyOf_of_not_prefix fun hboth => hboth.1 ?_
      rw [hne]
      rfl
    · have hnorm := normPrefix_of_head hpfx h
      have hstrip := relKeyOf_append (by rwa [hnorm]) ('/' :: o.tail)
      rw [hnorm] at hstrip
      rw [SourceObject.rawKey, SourceObject.key, if_neg hne, hstrip]
      exact List.dropWhile_cons_of_pos (by decide)
  | relative =>
    refine relKeyOf_of_not_prefix fun hboth => ?_
    rcases h with rfl | hnot
    · exact hboth.1 rfl
    · exact hnot hboth.2

/-- Without the fit the text of the prefix is counted once too often, or once too rarely. -/
theorem filter_of_not_prefixFits (hpfx : pfx.getLast? ≠ some '/') (h : ¬PrefixFits pfx style o) :
    pfx ≠ [] ∧
      (pfx.filter (· ≠ '/') ++ (relKeyOf pfx (o.rawKey pfx style)).filter (· ≠ '/')).length ≠
        ((o.key pfx).filter (· ≠ '/')).length := by
  cases style with
  | full =>
    have hhead : pfx.head? = some '/' := not_not.mp h
    have hne : pfx ≠ [] := by
      rintro rfl
      cases hhead
    have hpos := List.length_pos_iff.mpr (filter_normPrefix_ne_nil hpfx hne)
    refine ⟨hne, ?_⟩
    rw [SourceObject.rawKey, SourceObject.key, if_neg hne, relKeyOf_of_head hhead,
      filter_lstripSlash, List.length_append]
    rw [filter_normPrefix hpfx] at hpos
    omega
  | relative =>
    obtain ⟨hne, hfront⟩ := not_or.mp h
    obtain ⟨rest, hrest⟩ := not_not.mp hfront
    have hpos := List.length_pos_iff.mpr (filter_normPrefix_ne_nil hpfx hne)
    refine ⟨hne, ?_⟩
    rw [SourceObject.rawKey, SourceObject.key, if_neg hne, ← hrest,
      relKeyOf_append (normPrefix_ne_nil hpfx hne), filter_lstripSlash, List.length_append,
      List.filter_append, List.length_append, List.filter_cons_of_neg (by decide),
      List.filter_append, List.length_append]
    omega

/-- An object is left out exactly if nothing is left of its key. -/
theorem skipped_iff (hpfx : pfx.getLast? ≠ some '/') :
    o.Skipped pfx style ↔ relKeyOf pfx (o.rawKey pfx style) = [] := by
  by_cases hfits : PrefixFits pfx style o
  · rw [relKeyOf_of_prefixFits hpfx hfits, lstripSlash_eq_nil_iff]
    cases style with
    | full => exact and_iff_right hfits
    | relative =>
      refine or_iff_left ?_
      rintro ⟨hne, rest, hrest, -⟩
      exact hfits.elim hne fun hnot => hnot (hrest ▸ List.prefix_append _ _)
  · cases style with
    | full =>
      refine iff_of_false (fun h => hfits h.1) fun hnil => ?_
      -- the prefix keeps its slash in front and is not cut off, so its name is left of the key
      have hhead : pfx.head? = some '/' := not_not.mp hfits
      have hne : pfx ≠ [] := by
        rintro rfl
        cases hhead
      rw [SourceObject.rawKey, SourceObject.key, if_neg hne, relKeyOf_of_head hhead,
        lstripSlash_eq_nil_iff] at hnil
      have hslashes := filter_normPrefix_ne_nil hpfx hne
      rw [filter_normPrefix hpfx, Ne, List.filter_eq_nil_iff] at hslashes
      exact hslashes fun c hc => by simpa using hnil c (List.mem_append_left _ hc)
    | relative =>
      -- the key begins with the prefix a second time, and that is cut off too
      obtain ⟨hne, hfront⟩ := not_or.mp hfits
      obtain ⟨rest, hrest⟩ := not_not.mp hfront
      rw [SourceObject.rawKey, ← hrest, relKeyOf_append (normPrefix_ne_nil hpfx hne),
        lstripSlash_eq_nil_iff]
      constructor
      · rintro (hall | ⟨-, rest', hrest', hall⟩)
        · exact fun c hc => hall c (hrest ▸ List.mem_append_right _ hc)
        · rw [← hrest, List.append_cancel_left_eq] at hrest'
          rwa [hrest']
      · exact fun hall => Or.inr ⟨hne, rest, hrest.symm, hall⟩

/-- A run of the cleaned text is right exactly if it is right in the URI of the object, which has
`k` slashes more there. -/
theorem cleanUri_run_iff {a b : Text} {m n k : ℕ} (ha : a.getLast? ≠ some '/')
    (hb : b.head? ≠ some '/') (hm : 0 < m) (hn : 0 < n)
    (hrun : outRun a m = n + k ↔ k ≤ 1 ∧ outRun a (n + k) = n + k) :
    cleanUri (a ++ List.replicate m '/' ++ b) = a ++ List.replicate (n + k) '/' ++ b ↔
      k ≤ 1 ∧ SettledRuns (a ++ List.replicate (n + k) '/' ++ b) := by
  rw [cleanUri_run_eq_iff hm ha hb, ← cleanUri_eq_self_iff,
    cleanUri_run_eq_iff (Nat.add_pos_left hn k) ha hb, hrun]
  tauto

theorem slashes_prefix_iff {b : Text} (hb : b.head? ≠ some '/') (k : ℕ) :
    ['/', '/'] <+: List.replicate k '/' ++ b ↔ 1 < k := by
  match k with
  | 0 =>
    refine iff_of_false (fun h => ?_) (by omega)
    obtain ⟨rest, rfl⟩ := h
    exact hb rfl
  | 1 =>
    refine iff_of_false (fun h => ?_) (by omega)
    obtain ⟨rest, hrest⟩ := (List.cons_prefix_cons.mp h).2
    have hrest' : '/' :: rest = b := hrest
    exact hb (hrest' ▸ rfl)
  | k + 2 =>
    refine iff_of_true ?_ (by omega)
    rw [List.replicate_succ, List.replicate_succ, List.cons_append, List.cons_append]
    exact List.cons_prefix_cons.mpr ⟨rfl, List.cons_prefix_cons.mpr ⟨rfl, List.nil_prefix⟩⟩

/-- The URI a file is copied from is that of the object exactly if the prefix fits and the cleaning
of the slashes leaves the URI alone. -/
theorem srcUri_file_eq_iff (hbucket : '/' ∉ bucket) (hpfx : pfx.getLast? ≠ some '/') :
    (o.file bucket pfx style target).srcUri = o.uri bucket pfx ↔
      PrefixFits pfx style o ∧ ¬['/', '/'] <+: o.tail ∧ SettledRuns (o.uri bucket pfx) := by
  have hsrc : (o.file bucket pfx style target).srcUri = cleanUri ("s3://".toList ++ bucket ++
      '/' :: (pfx ++ '/' :: relKeyOf pfx (o.rawKey pfx style))) := by
    show restoreScheme (squeezeSlashes _) = _
    rw [rstripSlash_of_last hpfx]
    rfl
  by_cases hfits : PrefixFits pfx style o
  · -- the slashes the tail begins with decide
    obtain ⟨k, hk⟩ := exists_slashes o.tail
    have hrel := relKeyOf_of_prefixFits hpfx hfits
    have hhead := head?_lstripSlash o.tail
    have hslashes : ¬['/', '/'] <+: o.tail ↔ k ≤ 1 := by
      conv_lhs => rw [hk, slashes_prefix_iff hhead, not_lt]
    rw [and_iff_right hfits, hsrc, hrel, hslashes]
    have huri : o.uri bucket pfx = "s3://".toList ++ bucket ++ '/' :: o.key pfx := rfl
    by_cases hne : pfx = []
    · subst hne
      rw [SourceObject.key, if_pos rfl] at huri
      by_cases hempty : bucket = []
      · -- four slashes of which three come out
        have hleft : o.uri bucket [] = "s3:".toList ++ List.replicate (3 + k) '/' ++
            lstripSlash o.tail := by
          have hthree : List.replicate (3 + k) '/' = "///".toList ++ List.replicate k '/' :=
            List.replicate_add _ _ _
          rw [huri, hempty, hthree]
          conv_lhs => rw [hk]
          simp
        have hright : "s3://".toList ++ bucket ++ '/' :: ([] ++ '/' :: lstripSlash o.tail) =
            "s3:".toList ++ List.replicate 4 '/' ++ lstripSlash o.tail := by
          rw [hempty]
          rfl
        rw [hleft, hright]
        refine cleanUri_run_iff (by decide) hhead (by decide) (by decide) ?_
        have hword : "s3:".toList <:+ "s3:".toList := List.suffix_refl _
        rw [outRun, outRun, if_pos hword]
        omega
      · -- two slashes of which one comes out
        have hlast : ("s3://".toList ++ bucket).getLast? ≠ some '/' := by
          rw [List.getLast?_append_of_ne_nil _ hempty]
          exact fun hslash => hbucket (List.mem_of_getLast? hslash)
        have hleft : o.uri bucket [] = "s3://".toList ++ bucket ++ List.replicate (1 + k) '/' ++
            lstripSlash o.tail := by
          rw [huri, Nat.add_comm, List.replicate_succ]
          conv_lhs => rw [hk]
          simp
        have hright : "s3://".toList ++ bucket ++ '/' :: ([] ++ '/' :: lstripSlash o.tail) =
            "s3://".toList ++ bucket ++ List.replicate 2 '/' ++ lstripSlash o.tail := by
          simp [List.replicate_succ]
        rw [hleft, hright]
        refine cleanUri_run_iff hlast hhead Nat.two_pos Nat.one_pos ?_
        rw [outRun, outRun]
        split_ifs
        · omega
        · omega
    · -- one slash in front of what is left of the key
      have hlast : ("s3://".toList ++ bucket ++ '/' :: pfx).getLast? ≠ some '/' := by
        obtain ⟨c, cs, rfl⟩ := List.exists_cons_of_ne_nil hne
        rwa [List.getLast?_append_of_ne_nil _ (List.cons_ne_nil _ _), List.getLast?_cons_cons]
      have hleft : o.uri bucket pfx = "s3://".toList ++ bucket ++ '/' :: pfx ++
          List.replicate (1 + k) '/' ++ lstripSlash o.tail := by
        rw [huri, SourceObject.key, if_neg hne, Nat.add_comm, List.replicate_succ]
        conv_lhs => rw [hk]
        simp
      have hright : "s3://".toList ++ bucket ++ '/' :: (pfx ++ '/' :: lstripSlash o.tail) =
          "s3://".toList ++ bucket ++ '/' :: pfx ++ List.replicate 1 '/' ++ lstripSlash o.tail := by
        simp
      rw [hleft, hright]
      refine cleanUri_run_iff hlast hhead Nat.one_pos Nat.one_pos ?_
      rw [outRun, outRun]
      split_ifs
      · omega
      · omega
  · -- without their slashes, which the cleaning takes, the texts differ in length
    refine iff_of_false (fun h => ?_) fun h => hfits h.1
    obtain ⟨hne, hcount⟩ := filter_of_not_prefixFits hpfx hfits
    have hfilter := congrArg (fun t : Text => (t.filter (· ≠ '/')).length) (hsrc.symm.trans h)
    simp only [filter_cleanUri] at hfilter
    refine hcount ?_
    simpa [SourceObject.uri, List.filter_append, List.filter_cons] using hfilter

/-- Different objects have different URIs. -/
theorem uri_injective (h : o.uri bucket pfx = o'.uri bucket pfx) : o.tail = o'.tail := by
  have hkey : o.key pfx = o'.key pfx := (List.cons.inj (List.append_cancel_left h)).2
  rw [SourceObject.key, SourceObject.key] at hkey
  split_ifs at hkey
  · exact hkey
  · exact (List.cons.inj (List.append_cancel_left hkey)).2

/-- Where the file is put. -/
theorem dstPath_file (hrel : relKeyOf pfx (o.rawKey pfx style) = lstripSlash o.tail) :
    (o.file bucket pfx style target).dstPath =
      (asPosix ⟨target.absolute, target.parts ++ o.parts⟩).toList := by
  have hparts : pathParts (String.ofList (lstripSlash o.tail)) = o.parts :=
    pathParts_lstripSlash o.tail
  have hdiv : target.div (String.ofList (lstripSlash o.tail)) =
      ⟨target.absolute, target.parts ++ o.parts⟩ := by
    rw [PurePath.div, if_neg, hparts]
    rw [PurePath.ofText, String.toList_ofList, decide_eq_true_iff]
    exact head?_lstripSlash o.tail
  rw [SourceObject.file, planFile, SourceObject.item, hrel, hdiv]

theorem place_dstPath (htarget : IsParts target.parts)
    (hrel : relKeyOf pfx (o.rawKey pfx style) = lstripSlash o.tail) :
    (PurePath.ofText (String.ofList (o.file bucket pfx style target).dstPath)).place =
      resolve target.place o.parts := by
  rw [dstPath_file hrel, String.ofList_toList,
    ofText_asPosix (htarget.append (isParts_pathParts _))]
  exact resolve_append

end Object

/-! ## The listing -/

section Listing

variable {bucket pfx : Text} {style : KeyStyle} {target : PurePath} {objs : List SourceObject}

theorem addresses_of_addressable (hbucket : '/' ∉ bucket) (hpfx : pfx.getLast? ≠ some '/')
    (htarget : IsParts target.parts) (haddr : ∀ o ∈ objs, Addressable bucket pfx style o)
    (hparts : ∀ o ∈ objs, ∀ o' ∈ objs, o.tail ≠ o'.tail → o.parts ≠ o'.parts) :
    Addresses bucket pfx style target objs := by
  have hrel : ∀ o ∈ objs, relKeyOf pfx (o.rawKey pfx style) = lstripSlash o.tail := fun o ho =>
    relKeyOf_of_prefixFits hpfx (haddr o ho).fits
  have hsource : ∀ o ∈ objs, (o.file bucket pfx style target).srcUri = o.uri bucket pfx :=
    fun o ho => (srcUri_file_eq_iff hbucket hpfx).mpr
      ⟨(haddr o ho).fits, (haddr o ho).slashes, (haddr o ho).runs⟩
  refine ⟨hsource, fun o ho o' ho' hne heq => ?_, fun o ho o' ho' hne heq => ?_,
    fun o ho o' ho' hne heq => ?_, fun o ho => ?_⟩
  · have hkeys : lstripSlash o.tail = lstripSlash o'.tail := by
      rw [← hrel o ho, ← hrel o' ho']
      exact heq
    refine hparts o ho o' ho' hne ?_
    rw [SourceObject.parts, SourceObject.parts, ← pathParts_lstripSlash, hkeys,
      pathParts_lstripSlash]
  · rw [hsource o ho, hsource o' ho'] at heq
    exact hne (uri_injective heq)
  · rw [dstPath_file (hrel o ho), dstPath_file (hrel o' ho')] at heq
    have hpaths := asPosix_inj (htarget.append (isParts_pathParts _))
      (htarget.append (isParts_pathParts _)) (String.toList_inj.mp heq)
    exact hparts o ho o' ho' hne (List.append_cancel_left (congrArg PurePath.parts hpaths))
  · rw [place_dstPath htarget (hrel o ho)]
    have hstays := (haddr o ho).stays
    have hplace : resolve (target.place ++ []) o.parts = target.place ++ resolve [] o.parts :=
      resolve_of_staysBelow hstays
    rw [List.append_nil] at hplace
    rw [hplace]
    exact ⟨List.prefix_append _ _, fun h => (haddr o ho).leads (List.self_eq_append_right.mp h)⟩

variable (pfx style) in
/-- The objects that `_read_mc_objects` keeps, in its order. -/
def keptObjects (listing : List SourceObject) : List SourceObject :=
  (listing.filter fun o => relKeyOf pfx (o.rawKey pfx style) ≠ []).insertionSort
    fun o o' => (o.item pfx style).relKey ≤ (o'.item pfx style).relKey

theorem mem_keptObjects (hpfx : pfx.getLast? ≠ some '/') {listing : List SourceObject}
    {o : SourceObject} :
    o ∈ keptObjects pfx style listing ↔ o ∈ listing ∧ ¬o.Skipped pfx style := by
  rw [keptObjects, List.mem_insertionSort, List.mem_filter, decide_eq_true_iff, skipped_iff hpfx]

theorem readMcObjects_lines (listing : List SourceObject) :
    readMcObjects (listing.map (SourceObject.line pfx style)) pfx =
      (keptObjects pfx style listing).map (SourceObject.item pfx style) := by
  let keep : McObject → Option ListedObject := fun obj =>
    if obj.status ≠ "success".toList ∨ obj.type ≠ "file".toList then none
    else if relKeyOf pfx obj.key = [] then none else some ⟨relKeyOf pfx obj.key, obj.size⟩
  have hline : ∀ o : SourceObject, keep (o.line pfx style) =
      if relKeyOf pfx (o.rawKey pfx style) = [] then none else some (o.item pfx style) :=
    fun o => if_neg fun h => h.elim (fun hne => hne rfl) fun hne => hne rfl
  have hitems : (listing.map (SourceObject.line pfx style)).filterMap keep =
      (listing.filter fun o => relKeyOf pfx (o.rawKey pfx style) ≠ []).map
        (SourceObject.item pfx style) := by
    rw [List.filterMap_map]
    induction listing with
    | nil => rfl
    | cons o listing ih =>
      rw [List.filterMap_cons, Function.comp_apply, hline, ih, List.filter_cons]
      by_cases hrel : relKeyOf pfx (o.rawKey pfx style) = []
      · simp [hrel]
      · simp [hrel]
  rw [keptObjects, List.map_insertionSort _ (fun a b : ListedObject => a.relKey ≤ b.relKey) _ _
    fun _ _ _ _ => Iff.rfl, ← hitems]
  rfl

/-- The files of an entry are those of the objects that are selected. -/
theorem files_planEntry {env : Planning} {ds : DatasetConfig} {e : PlanEntry PlanFile}
    (hparse : parseS3Uri ds.sourceUri = some (bucket, pfx))
    (htarget : resolveLocalRootOverride ds.targetLocalUri env.overrideRoot = some target)
    (h : planEntry env ds = some e) :
    e.files = (filterForDataset env.matchAny ds
      (readMcObjects (env.listing ds.datasetId.str) pfx)).map (planFile bucket pfx target) := by
  obtain ⟨_, hsource, h⟩ := Option.bind_eq_some_iff.mp h
  obtain rfl := Option.some.inj (hparse.symm.trans hsource)
  obtain ⟨_, hto, h⟩ := Option.bind_eq_some_iff.mp h
  obtain rfl := Option.some.inj (htarget.symm.trans hto)
  obtain ⟨_, -, h⟩ := Option.bind_eq_some_iff.mp h
  obtain rfl := Option.some.inj h
  rfl

theorem filterForDataset_sublist (matchAny : List Text → Text → Bool) (cfg : DatasetConfig)
    (objects : List ListedObject) : (filterForDataset matchAny cfg objects).Sublist objects := by
  have hslice : (sliced cfg.maxFiles (matching matchAny cfg objects)).Sublist objects :=
    ((prefix_sliced_iff.mp (List.prefix_refl _)).1.sublist.trans List.filter_sublist).trans
      List.filter_sublist
  rw [filterForDataset_eq, (filterWithStats_spec matchAny cfg objects).1]
  exact (takeBytes_isPrefix _ _ _).sublist.trans hslice

/-- The files of a plan are files of listed objects, one for each of some of them. -/
theorem exists_objects_planEntry {env : Planning} {ds : DatasetConfig} {e : PlanEntry PlanFile}
    {listing : List SourceObject} (hparse : parseS3Uri ds.sourceUri = some (bucket, pfx))
    (htarget : resolveLocalRootOverride ds.targetLocalUri env.overrideRoot = some target)
    (hlisting : env.listing ds.datasetId.str = listing.map (SourceObject.line pfx style))
    (h : planEntry env ds = some e) :
    ∃ objs : List SourceObject, objs.Sublist (keptObjects pfx style listing) ∧
      e.files = objs.map (SourceObject.file bucket pfx style target) := by
  have hfiles := files_planEntry hparse htarget h
  rw [hlisting, readMcObjects_lines] at hfiles
  obtain ⟨objs, hsub, hobjs⟩ := List.sublist_map_iff.mp (filterForDataset_sublist env.matchAny ds
    ((keptObjects pfx style listing).map (SourceObject.item pfx style)))
  rw [hobjs, List.map_map] at hfiles
  exact ⟨objs, hsub, hfiles⟩

variable (bucket pfx style) in
/-- Every plan of a dataset with this source and this listing addresses the objects its files are
planned for. The target directory is absolute, as `as_uri` raises an error for every other one. -/
def PlanAddresses (sourceUri : Text) (listing : List SourceObject) : Prop :=
  ∀ (env : Planning) (ds : DatasetConfig) (target : PurePath) (e : PlanEntry PlanFile),
    ds.sourceUri = sourceUri →
    env.listing ds.datasetId.str = listing.map (SourceObject.line pfx style) →
    resolveLocalRootOverride ds.targetLocalUri env.overrideRoot = some target →
    target.absolute = true → IsParts target.parts → planEntry env ds = some e →
    ∃ objs : List SourceObject, objs.Sublist (keptObjects pfx style listing) ∧
      e.files = objs.map (SourceObject.file bucket pfx style target) ∧
      Addresses bucket pfx style target objs

/-- Some plan has all objects that are kept. -/
theorem addresses_keptObjects {sourceUri : Text} {listing : List SourceObject}
    (hparse : parseS3Uri sourceUri = some (bucket, pfx))
    (h : PlanAddresses bucket pfx style sourceUri listing) (target : PurePath)
    (habs : target.absolute = true) (htarget : IsParts target.parts) :
    Addresses bucket pfx style target (keptObjects pfx style listing) := by
  -- a configuration that includes everything and limits nothing
  let env : Planning :=
    { matchAny := fun patList _ => patList ≠ []
      asUri := fun _ => some []
      overrideRoot := none
      listing := fun _ => listing.map (SourceObject.line pfx style) }
  let ds : DatasetConfig :=
    { datasetId := .text []
      family := []
      version := none
      sourceUri := sourceUri
      targetLocalUri := "file://".toList ++ (asPosix target).toList
      maxBytes := none
      maxFiles := none
      includes := [[]]
      excludes := [] }
  have hresolve : resolveLocalRootOverride ds.targetLocalUri env.overrideRoot = some target := by
    have hfile : parseFileUri ds.targetLocalUri = some target := by
      rw [parseFileUri, if_pos (List.prefix_append _ _)]
      show some (PurePath.ofText (String.ofList (asPosix target).toList)) = some target
      rw [String.ofList_toList, ofText_asPosix htarget]
    rw [resolveLocalRootOverride, hfile]
    rfl
  have hentry : ∃ e, planEntry env ds = some e :=
    ⟨_, Option.bind_eq_some_iff.mpr ⟨_, hparse, Option.bind_eq_some_iff.mpr ⟨_, hresolve,
      Option.bind_eq_some_iff.mpr ⟨_, rfl, rfl⟩⟩⟩⟩
  obtain ⟨e, he⟩ := hentry
  obtain ⟨objs, hsub, hfiles, haddr⟩ := h env ds target e rfl rfl hresolve habs htarget he
  have hall := files_planEntry hparse hresolve he
  have hevery : filterForDataset env.matchAny ds
      (readMcObjects (env.listing ds.datasetId.str) pfx) =
        readMcObjects (env.listing ds.datasetId.str) pfx := by
    show takeBytes none 0 (((readMcObjects _ pfx).filter fun _ => true).filter fun _ => true) = _
    rw [takeBytes_none, List.filter_true, List.filter_true]
  -- its plan has a file for every object that is kept
  have hlength : (keptObjects pfx style listing).length ≤ objs.length := by
    rw [hevery, readMcObjects_lines, hfiles] at hall
    have hlen := congrArg List.length hall
    simp only [List.length_map] at hlen
    exact hlen.ge
  rwa [hsub.eq_of_length_le hlength] at haddr

/-- The plans address what is listed exactly if the keys survive being taken apart and put together,
and no two of them are one path. -/
theorem planAddresses_iff (sourceUri : Text) (hparse : parseS3Uri sourceUri = some (bucket, pfx))
    (style : KeyStyle) (listing : List SourceObject) :
    PlanAddresses bucket pfx style sourceUri listing ↔
      (∀ o ∈ listing, o.Skipped pfx style ∨ Addressable bucket pfx style o) ∧
      ∀ o ∈ listing, ∀ o' ∈ listing, ¬o.Skipped pfx style → ¬o'.Skipped pfx style →
        o.tail ≠ o'.tail → o.parts ≠ o'.parts := by
  obtain ⟨hbucket, hpfx⟩ := parseS3Uri_spec hparse
  constructor
  · intro h
    have hrel : ∀ o ∈ keptObjects pfx style listing, PrefixFits pfx style o ∧
        ¬['/', '/'] <+: o.tail ∧ SettledRuns (o.uri bucket pfx) := fun o ho =>
      (srcUri_file_eq_iff hbucket hpfx).mp
        ((addresses_keptObjects hparse h ⟨true, []⟩ rfl nofun).source o ho)
    refine ⟨fun o ho => or_iff_not_imp_left.mpr fun hkept => ?_,
      fun o ho o' ho' hkept hkept' hne heq => ?_⟩
    · have hmem := (mem_keptObjects hpfx).mpr ⟨ho, hkept⟩
      obtain ⟨hfits, hslashes, hruns⟩ := hrel o hmem
      -- a target with a name of its own, which is not come back to
      obtain ⟨n, hname, hn⟩ := exists_name_notMem o.parts
      have hpath : IsParts [n] := fun part hpart => by
        rw [List.mem_singleton.mp hpart]
        exact ⟨hname.1, hname.2.1, hname.2.2.2⟩
      have hbelow := (addresses_keptObjects hparse h ⟨true, [n]⟩ rfl hpath).below o hmem
      rw [place_dstPath hpath (relKeyOf_of_prefixFits hpfx hfits)] at hbelow
      have hplace : PurePath.place ⟨true, [n]⟩ = [n] := by
        rw [PurePath.place, resolve_cons, walk_of_ne hname.2.2.1]
        rfl
      rw [hplace] at hbelow
      have hstays : staysBelow 0 o.parts = true := by
        by_contra hleaves
        have hgone : n ∉ resolve [n] o.parts := notMem_resolve_of_not_staysBelow
          (Bool.eq_false_iff.mpr hleaves) List.not_mem_nil hn
        exact hgone (hbelow.1.subset List.mem_cons_self)
      refine ⟨hfits, hslashes, hruns, hstays, fun hnil => hbelow.2 ?_⟩
      have hdown : resolve ([n] ++ []) o.parts = [n] ++ resolve [] o.parts :=
        resolve_of_staysBelow hstays
      rw [List.append_nil, hnil, List.append_nil] at hdown
      exact hdown.symm
    · have hmem := (mem_keptObjects hpfx).mpr ⟨ho, hkept⟩
      have hmem' := (mem_keptObjects hpfx).mpr ⟨ho', hkept'⟩
      refine (addresses_keptObjects hparse h ⟨true, []⟩ rfl nofun).dstPath o hmem o'
        hmem' hne ?_
      rw [dstPath_file (relKeyOf_of_prefixFits hpfx (hrel o hmem).1),
        dstPath_file (relKeyOf_of_prefixFits hpfx (hrel o' hmem').1), heq]
  · rintro ⟨haddr, hparts⟩ env ds target e rfl hlisting htarget - hpath he
    obtain ⟨objs, hsub, hfiles⟩ := exists_objects_planEntry hparse htarget hlisting he
    have hkept : ∀ o ∈ objs, o ∈ listing ∧ ¬o.Skipped pfx style := fun o ho =>
      (mem_keptObjects hpfx).mp (hsub.subset ho)
    refine ⟨objs, hsub, hfiles, addresses_of_addressable hbucket hpfx hpath (fun o ho => ?_) ?_⟩
    · exact (haddr o (hkept o ho).1).resolve_left (hkept o ho).2
    · intro o ho o' ho'
      exact hparts o (hkept o ho).1 o' (hkept o' ho').1 (hkept o ho).2 (hkept o' ho').2

end Listing

/-- An object whose key goes on with the text of the prefix. -/
def renamedObject : SourceObject := ⟨"raw_v2/meta.json".toList, 7⟩

theorem planAddresses_iff_full :
    PlanAddresses "robot".toList "raw".toList .full "s3://robot/raw".toList [renamedObject] ↔
      (∀ o ∈ [renamedObject],
        o.Skipped "raw".toList .full ∨ Addressable "robot".toList "raw".toList .full o) ∧
      ∀ o ∈ [renamedObject], ∀ o' ∈ [renamedObject], ¬o.Skipped "raw".toList .full →
        ¬o'.Skipped "raw".toList .full → o.tail ≠ o'.tail → o.parts ≠ o'.parts :=
  planAddresses_iff "s3://robot/raw".toList (by decide) .full [renamedObject]

/-- In a listing relative to `raw` its key is taken for a full one, and a file that does not exist
is planned. -/
theorem not_planAddresses_renamed :
    ¬∀ (sourceUri bucket pfx : Text), parseS3Uri sourceUri = some (bucket, pfx) →
      ∀ (style : KeyStyle) (listing : List SourceObject),
        PlanAddresses bucket pfx style sourceUri listing := by
  intro h
  have hparse : parseS3Uri "s3://robot/raw".toList = some ("robot".toList, "raw".toList) := by
    decide
  have haddr := addresses_keptObjects hparse
    (h "s3://robot/raw".toList _ _ hparse .relative [renamedObject]) ⟨true, []⟩ rfl nofun
  have hmem : renamedObject ∈ keptObjects "raw".toList .relative [renamedObject] := by
    have hkept : relKeyOf "raw".toList (renamedObject.rawKey "raw".toList .relative) ≠ [] := by
      decide
    rw [keptObjects, List.mem_insertionSort, List.mem_filter, decide_eq_true_iff]
    exact ⟨List.mem_singleton_self _, hkept⟩
  obtain ⟨hbucket, hpfx⟩ := parseS3Uri_spec hparse
  obtain ⟨hfits, -⟩ := (srcUri_file_eq_iff hbucket hpfx).mp (haddr.source renamedObject hmem)
  rcases hfits with hnil | hnot
  · exact absurd hnil (by decide)
  · exact hnot (by decide)

end RobotDataHarness.Devscale

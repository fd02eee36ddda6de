import RobotDataHarness.Lake.Addressing
import RobotDataHarness.Lake.LocalStore

/-!
# The algebra of lake URIs

What `parse_uri` and `join_uri` of `robot_dh/lake/uri.py` make of their own results: a URI that is
parsed again, segments that are joined one after the other, a join of nothing, and whether what is
joined to a base stays below it.

- `slashJoin_assoc`: the join of texts behind both branches of `join_uri`
- `eq_of_names_eq`: a canonical key is known from its names, so joins of S3 URIs always agree
- `uriAlgebra_iff`: where the four laws hold
-/

namespace RobotDataHarness.Lake

open RobotDataHarness.Library

/-- The two texts with a slash between them, if both are there. -/
def slashJoin (front suffix : String) : String :=
  if front ≠ "" ∧ suffix ≠ "" then front ++ "/" ++ suffix
  else if suffix ≠ "" then suffix
  else front

/-- A segment without white space and slashes around it. -/
def segText (part : String) : String := stripSlashes (stripSpace part)

/-- A segment that is left out. -/
def IsBlank (part : String) : Prop := stripSpace part = ""

instance (part : String) : Decidable (IsBlank part) := inferInstanceAs (Decidable (_ = _))

/-- One of the segments is left out, or neither is made of slashes only. -/
def Tidy (x y : String) : Prop := IsBlank x ∨ IsBlank y ∨ segText x ≠ "" ∧ segText y ≠ ""

/-! ## The laws -/

/-- Parsing is idempotent. -/
def ParsesBack (u : String) : Prop := ∀ p, parseUri u = .ok p → parseUri p.uri = .ok p

/-- Two segments are joined one after the other as they are at once. -/
def JoinsInSteps (base x y : String) : Prop :=
  (do let j ← joinUri base [x]; joinUri j [y]) = joinUri base [x, y]

/-- Joining nothing gives the canonical base. -/
def JoinsNothing (base : String) : Prop :=
  ∀ p, parseUri base = .ok p → joinUri base [] = .ok p.uri

/-- The place a local path leads to. -/
def localPlace (path : String) : List String := (PurePath.ofText path).place

/-- What a URI names is what the base names, or below it. -/
def AtOrBelow (p q : ParsedUri) : Prop :=
  if p.isS3 then q.isS3 = true ∧ q.bucket = p.bucket ∧ (q.key = p.key ∨ IsBelow p.key q.key)
  else q.isS3 = false ∧ (PurePath.ofText q.key).absolute = true ∧
    localPlace p.key <+: localPlace q.key

/-- What is joined to an absolute local base or to an S3 base stays below it. -/
def JoinsBelow (base : String) (parts : List String) : Prop :=
  ∀ p, parseUri base = .ok p → p.isS3 = true ∨ (PurePath.ofText p.key).absolute = true →
    ∃ j q, joinUri base parts = .ok j ∧ parseUri j = .ok q ∧ AtOrBelow p q

/-- When a local path and two segments can be joined in steps. -/
structure LocalSteps (root x y : String) : Prop where
  /-- Something is left after the first join. -/
  nonempty : slashJoin root (segText x) ≠ ""
  noFile : ¬"file://".toList <+: (slashJoin root (segText x)).toList
  tidy : ¬"s3://".toList <+: (slashJoin root (segText x)).toList → Tidy x y
  /-- A path that reads as an S3 URI reads as a canonical one with both segments behind it. -/
  canonical : "s3://".toList <+: (slashJoin root (segText x)).toList →
    ∃ bucket key, IsBucketName bucket ∧ IsCanonical key ∧
      slashJoin root (joinSuffix [x, y]) = s3Text bucket key

section Texts

variable {a b c : String}

@[simp] theorem slashJoin_empty_left (b : String) : slashJoin "" b = b := by
  by_cases hb : b = ""
  · simp [slashJoin, hb]
  · simp [slashJoin, hb]

@[simp] theorem slashJoin_empty_right (a : String) : slashJoin a "" = a := by
  simp [slashJoin]

theorem slashJoin_of_ne (ha : a ≠ "") (hb : b ≠ "") : slashJoin a b = a ++ "/" ++ b := by
  rw [slashJoin, if_pos ⟨ha, hb⟩]

theorem append_slash_ne (a b : String) : a ++ "/" ++ b ≠ "" := by
  intro h
  have hlist := congrArg String.toList h
  simp at hlist

theorem slashJoin_assoc (a b c : String) :
    slashJoin (slashJoin a b) c = slashJoin a (slashJoin b c) := by
  by_cases ha : a = ""
  · simp [ha]
  · by_cases hb : b = ""
    · simp [hb]
    · by_cases hc : c = ""
      · simp [hc]
      · rw [slashJoin_of_ne ha hb, slashJoin_of_ne hb hc, slashJoin_of_ne (append_slash_ne a b) hc,
          slashJoin_of_ne ha (append_slash_ne b c)]
        simp only [String.append_assoc]

@[simp] theorem names_slashJoin (a b : String) : names (slashJoin a b) = names a ++ names b := by
  by_cases ha : a = ""
  · simp [ha]
  · by_cases hb : b = ""
    · simp [hb]
    · rw [slashJoin_of_ne ha hb, names_append_slash]

theorem length_append_slash (a b : String) :
    (a ++ "/" ++ b).toList.length = a.toList.length + b.toList.length + 1 := by
  simp only [String.toList_append, List.length_append]
  have hslash : "/".toList.length = 1 := rfl
  omega

theorem length_slashJoin (a b : String) : (slashJoin a b).toList.length =
    a.toList.length + b.toList.length + if a = "" ∨ b = "" then 0 else 1 := by
  by_cases ha : a = ""
  · simp [ha]
  · by_cases hb : b = ""
    · simp [hb]
    · rw [slashJoin_of_ne ha hb, length_append_slash, if_neg (not_or.mpr ⟨ha, hb⟩)]

theorem slashJoin_left_cancel (h : slashJoin a b = slashJoin a c) : b = c := by
  by_cases ha : a = ""
  · simpa [ha] using h
  · have hlonger : ∀ s : String, a ≠ a ++ "/" ++ s := fun s heq => by
      have hlength := congrArg (fun t : String => t.toList.length) heq
      simp only [length_append_slash] at hlength
      omega
    by_cases hb : b = ""
    · by_cases hc : c = ""
      · rw [hb, hc]
      · rw [hb, slashJoin_empty_right, slashJoin_of_ne ha hc] at h
        exact absurd h (hlonger c)
    · by_cases hc : c = ""
      · rw [hc, slashJoin_empty_right, slashJoin_of_ne ha hb] at h
        exact absurd h.symm (hlonger b)
      · rw [slashJoin_of_ne ha hb, slashJoin_of_ne ha hc] at h
        have hlist : (a ++ "/").toList ++ b.toList = (a ++ "/").toList ++ c.toList := by
          rw [← String.toList_append, ← String.toList_append, h]
        exact String.toList_inj.mp (List.append_cancel_left hlist)

theorem getLast?_slashJoin (ha : a.toList.getLast? ≠ some '/') (hb : b.toList.getLast? ≠ some '/') :
    (slashJoin a b).toList.getLast? ≠ some '/' := by
  by_cases hb' : b = ""
  · simpa [hb'] using ha
  · by_cases ha' : a = ""
    · simpa [ha'] using hb
    · have hne : b.toList ≠ [] := fun hnil => hb' (String.toList_inj.mp hnil)
      rw [slashJoin_of_ne ha' hb', String.toList_append, List.getLast?_append_of_ne_nil _ hne]
      exact hb

end Texts

section Segments

variable {x y : String}

theorem segText_of_isBlank (h : IsBlank x) : segText x = "" := by
  rw [segText, show stripSpace x = "" from h]
  decide

theorem names_segText (x : String) : names (segText x) = partNames x := by
  rw [segText, names_stripSlashes, partNames]

theorem getLast?_segText (x : String) : (segText x).toList.getLast? ≠ some '/' := by
  have hstrip : segText x =
      rstripSlashes (String.ofList ((stripSpace x).toList.dropWhile (· = '/'))) := by
    simp only [segText, stripSlashes, rstripSlashes, String.toList_ofList]
  rw [hstrip]
  exact getLast?_rstripSlashes _

@[simp] theorem joinSuffix_nil : joinSuffix [] = "" := rfl

theorem cleanedParts_cons (x : String) (parts : List String) : cleanedParts (x :: parts) =
    if IsBlank x then cleanedParts parts else segText x :: cleanedParts parts := by
  by_cases hx : stripSpace x = ""
  · simp [cleanedParts, IsBlank, hx]
  · simp [cleanedParts, IsBlank, hx, segText]

theorem joinSuffix_one (x : String) : joinSuffix [x] = segText x := by
  rw [joinSuffix, cleanedParts_cons]
  split_ifs with hx
  · rw [segText_of_isBlank hx]
    rfl
  · rfl

theorem joinSuffix_two (x y : String) : joinSuffix [x, y] =
    if IsBlank x then segText y else if IsBlank y then segText x
    else segText x ++ "/" ++ segText y := by
  have hy := joinSuffix_one y
  rw [joinSuffix] at hy ⊢
  rw [cleanedParts_cons]
  split_ifs with hx hblank
  · exact hy
  · rw [cleanedParts_cons, if_pos hblank]
    rfl
  · rw [cleanedParts_cons, if_neg hblank]
    rfl

/-- Tidy segments are joined as texts are. -/
theorem joinSuffix_two_of_tidy (h : Tidy x y) :
    joinSuffix [x, y] = slashJoin (segText x) (segText y) := by
  rw [joinSuffix_two]
  split_ifs with hx hy
  · rw [segText_of_isBlank hx, slashJoin_empty_left]
  · rw [segText_of_isBlank hy, slashJoin_empty_right]
  · obtain ⟨hx', hy'⟩ := (h.resolve_left hx).resolve_left hy
    rw [slashJoin_of_ne hx' hy']

/-- Otherwise there is a slash too many. -/
theorem joinSuffix_two_of_not_tidy (h : ¬Tidy x y) :
    joinSuffix [x, y] = segText x ++ "/" ++ segText y ∧ (segText x = "" ∨ segText y = "") := by
  obtain ⟨hx, hy, hslash⟩ : ¬IsBlank x ∧ ¬IsBlank y ∧ ¬(segText x ≠ "" ∧ segText y ≠ "") := by
    simpa [Tidy, not_or] using h
  refine ⟨by rw [joinSuffix_two, if_neg hx, if_neg hy], ?_⟩
  by_cases hempty : segText x = ""
  · exact Or.inl hempty
  · exact Or.inr (not_not.mp fun hy' => hslash ⟨hempty, hy'⟩)

end Segments

/-! ## Canonical keys -/

section Canonical

/-- A text that neither begins nor ends with a slash, nor has two in a row, is its pieces. -/
theorem intercalate_pieces (cs : List Char) (hne : cs ≠ []) (hfirst : cs.head? ≠ some '/')
    (hlast : cs.getLast? ≠ some '/') (hsingle : ¬['/', '/'] <:+: cs) :
    ['/'].intercalate (pieces '/' cs) = cs := by
  induction hlen : cs.length using Nat.strong_induction_on generalizing cs with
  | _ n ih =>
    by_cases hslash : '/' ∈ cs
    · -- the first piece, and the pieces of what follows its slash
      obtain ⟨word, rest, rfl, hword⟩ := List.eq_append_cons_of_mem hslash
      have hwne : word ≠ [] := by
        rintro rfl
        exact hfirst rfl
      have hrne : rest ≠ [] := by
        rintro rfl
        simp at hlast
      have hrfirst : rest.head? ≠ some '/' := by
        intro hhead
        obtain ⟨more, rfl⟩ := List.head?_eq_some_iff.mp hhead
        exact hsingle ⟨word, more, by simp⟩
      have hrlast : rest.getLast? ≠ some '/' := by
        rwa [List.getLast?_append_of_ne_nil _ (List.cons_ne_nil _ _),
          List.getLast?_cons_of_ne_nil hrne] at hlast
      have hrsingle : ¬['/', '/'] <:+: rest := fun hinf =>
        hsingle (hinf.trans ((List.suffix_cons '/' rest).isInfix.trans
          (List.suffix_append word _).isInfix))
      have hrest := ih rest.length (by simp at hlen; omega) rest hrne hrfirst hrlast hrsingle rfl
      rw [pieces_append_cons, pieces_of_notMem hword hwne]
      cases hpieces : pieces '/' rest with
      | nil =>
        rw [hpieces] at hrest
        exact absurd hrest.symm hrne
      | cons p ps =>
        rw [hpieces] at hrest
        rw [List.singleton_append, List.intercalate_cons_cons, hrest]
        simp
    · -- one piece
      rw [pieces_of_notMem hslash hne]
      simp

/-- A canonical key is known from its names. -/
theorem eq_intercalate_names {key : String} (h : IsCanonical key) :
    key = "/".intercalate (names key) := by
  by_cases hne : key = ""
  · rw [hne]
    decide
  · have hlist : key.toList ≠ [] := fun hnil => hne (String.toList_inj.mp hnil)
    have hpieces := intercalate_pieces key.toList hlist h.first h.last h.single
    have htext : (names key).map String.toList = pieces '/' key.toList := by
      rw [names_eq_pieces, List.map_map]
      simp [Function.comp_def]
    rw [← String.toList_inj, String.toList_intercalate, htext]
    exact hpieces.symm

theorem eq_of_names_eq {key key' : String} (h : IsCanonical key) (h' : IsCanonical key')
    (hnames : names key = names key') : key = key' := by
  rw [eq_intercalate_names h, eq_intercalate_names h', hnames]

theorem stripDoubleSlashes_congr {key key' : String} (h : names key = names key') :
    stripDoubleSlashes key = stripDoubleSlashes key' := by
  refine eq_of_names_eq isCanonical_stripDoubleSlashes isCanonical_stripDoubleSlashes ?_
  rw [names_stripDoubleSlashes, names_stripDoubleSlashes, h]

end Canonical

/-! ## Parsing -/

section Parsing

variable {u : String} {p : ParsedUri}

theorem parseUri_s3Text {bucket : String} (hbucket : IsBucketName bucket) (key : String) :
    parseUri (s3Text bucket key) =
      .ok ⟨true, bucket, stripDoubleSlashes key, s3Text bucket (stripDoubleSlashes key)⟩ := by
  have h : s3Parse (s3Text bucket key) =
      .ok ⟨true, bucket, stripDoubleSlashes key, s3Text bucket (stripDoubleSlashes key)⟩ :=
    s3Parse_s3Text hbucket
  rw [s3Parse] at h
  split at h
  · cases h
  · next parsed hparsed =>
    split_ifs at h
    rw [hparsed, Except.ok.inj h]

/-- What is parsed is an S3 URI with a canonical key, or a local path. -/
theorem parseUri_cases (h : parseUri u = .ok p) :
    (p.isS3 = true ∧ IsBucketName p.bucket ∧ IsCanonical p.key ∧ p.uri = s3Text p.bucket p.key) ∨
    (∃ path, p = ⟨false, "", path, path⟩ ∧ path ≠ "" ∧ ¬"s3://".toList <+: u.toList ∧
      (u.toList = "file://".toList ++ path.toList ∨
        u = path ∧ ¬"file://".toList <+: u.toList)) := by
  rw [parseUri] at h
  split_ifs at h with hempty
  cases hs3 : afterScheme "s3://" u with
  | some rest =>
    rw [hs3] at h
    dsimp only at h
    split_ifs at h with hbucket
    obtain rfl := Except.ok.inj h
    refine Or.inl ⟨rfl, ⟨hbucket, fun hmem => ?_⟩, isCanonical_stripDoubleSlashes, rfl⟩
    rw [String.toList_ofList] at hmem
    simpa using List.mem_takeWhile_imp hmem
  | none =>
    rw [hs3] at h
    dsimp only at h
    split_ifs at h with hpath
    obtain rfl := Except.ok.inj h
    refine Or.inr ⟨_, rfl, hpath, afterScheme_eq_none_iff.mp hs3, ?_⟩
    by_cases hfile : "file://".toList <+: u.toList
    · obtain ⟨rest, hrest⟩ := hfile
      refine Or.inl ?_
      rw [afterScheme, if_pos ⟨rest, hrest⟩, ← hrest, List.drop_left]
      simp
    · refine Or.inr ⟨?_, hfile⟩
      rw [afterScheme, if_neg hfile]
      rfl

theorem parseUri_isS3 (h : parseUri u = .ok p) (hs3 : p.isS3 = true) :
    IsBucketName p.bucket ∧ IsCanonical p.key := by
  rcases parseUri_cases h with ⟨-, hbucket, hkey, -⟩ | ⟨path, rfl, -⟩
  · exact ⟨hbucket, hkey⟩
  · cases hs3

theorem parseUri_file {path : String} (hu : u.toList = "file://".toList ++ path.toList)
    (hne : path ≠ "") : parseUri u = .ok ⟨false, "", path, path⟩ := by
  have hu' : u ≠ "" := by
    rintro rfl
    simp at hu
  have hs3 : afterScheme "s3://" u = none := by
    rw [afterScheme_eq_none_iff, hu]
    intro h
    have hhead : 's' = 'f' := (List.cons_prefix_cons.mp h).1
    exact absurd hhead (by decide)
  have hfile : afterScheme "file://" u = some path.toList := by
    rw [afterScheme, hu, if_pos (List.prefix_append _ _), List.drop_left]
  rw [parseUri, if_neg hu', hs3, hfile]
  simp [hne]

theorem parseUri_local {path : String} (hne : path ≠ "") (hs3 : ¬"s3://".toList <+: path.toList)
    (hfile : ¬"file://".toList <+: path.toList) :
    parseUri path = .ok ⟨false, "", path, path⟩ :=
  parseUri_of_noScheme hne (afterScheme_eq_none_iff.mpr hs3) (afterScheme_eq_none_iff.mpr hfile)

/-- Parsing is idempotent unless a file URI holds another URI. -/
theorem parsesBack_iff (u : String) : ParsesBack u ↔
    ∀ rest, u.toList = "file://".toList ++ rest →
      ¬"s3://".toList <+: rest ∧ ¬"file://".toList <+: rest := by
  constructor
  · intro h rest hu
    by_cases hne : rest = []
    · subst hne
      exact ⟨by decide, by decide⟩
    · have hpath : String.ofList rest ≠ "" := by simpa [← String.toList_inj] using hne
      have hfile : u.toList = "file://".toList ++ (String.ofList rest).toList :=
        hu.trans (congrArg ("file://".toList ++ ·) String.toList_ofList.symm)
      have hback := h _ (parseUri_file hfile hpath)
      rcases parseUri_cases hback with ⟨hs3, -⟩ | ⟨path, hp, -, hs3, hfile⟩
      · cases hs3
      · obtain rfl := (ParsedUri.mk.inj hp).2.2.1
        have htext : (String.ofList rest).toList = rest := String.toList_ofList
        refine ⟨htext ▸ hs3, ?_⟩
        rcases hfile with hlong | ⟨-, hfile⟩
        · -- a text is not longer than itself
          exact absurd (List.self_eq_append_left.mp hlong) (by decide)
        · exact htext ▸ hfile
  · intro h p hp
    rcases parseUri_cases hp with ⟨hs3, hbucket, hkey, huri⟩ | ⟨path, rfl, hne, hs3, hu⟩
    · obtain ⟨isS3, bucket, key, uri⟩ := p
      obtain rfl : isS3 = true := hs3
      obtain rfl : uri = s3Text bucket key := huri
      rw [parseUri_s3Text hbucket, stripDoubleSlashes_eq_self_iff.mpr hkey]
    · rcases hu with hu | ⟨rfl, hfile⟩
      · exact parseUri_local hne (h _ hu).1 (h _ hu).2
      · exact parseUri_local hne hs3 hfile

end Parsing

/-! ## Joining -/

section Joining

variable {base x y root : String} {p : ParsedUri} {parts : List String}

theorem joinUri_of_parse (h : parseUri base = .ok p) (parts : List String) :
    joinUri base parts = .ok (if p.isS3 = true
      then s3Text p.bucket (stripDoubleSlashes (slashJoin p.key (joinSuffix parts)))
      else slashJoin (rstripSlashes p.key) (joinSuffix parts)) := by
  rw [joinUri, h]
  cases hs3 : p.isS3 <;> simp [hs3, slashJoin, bind, Except.bind, pure, Except.pure]

theorem joinUri_of_error {e : String} (h : parseUri base = .error e) (parts : List String) :
    joinUri base parts = .error e := by
  rw [joinUri, h]
  rfl

/-- Joining nothing gives the base back, unless it is a path that ends with a slash. -/
theorem joinsNothing_iff (base : String) : JoinsNothing base ↔
    ∀ p, parseUri base = .ok p → p.isS3 = true ∨ p.key.toList.getLast? ≠ some '/' := by
  refine forall_congr' fun p => forall_congr' fun hp => ?_
  rw [joinUri_of_parse hp, joinSuffix_nil, slashJoin_empty_right, slashJoin_empty_right,
    Except.ok.injEq]
  rcases parseUri_cases hp with ⟨hs3, -, hkey, huri⟩ | ⟨path, rfl, -⟩
  · rw [if_pos hs3, stripDoubleSlashes_eq_self_iff.mpr hkey, huri]
    exact iff_of_true rfl (Or.inl hs3)
  · simp only [Bool.false_eq_true, if_false, false_or]
    constructor
    · intro h
      rw [← h]
      exact getLast?_rstripSlashes path
    · exact rstripSlashes_of_getLast?

/-- Two joins of an S3 URI add the names of both segments. -/
theorem joinsInSteps_s3 (hp : parseUri base = .ok p) (hs3 : p.isS3 = true) (x y : String) :
    JoinsInSteps base x y := by
  obtain ⟨hbucket, hkey⟩ := parseUri_isS3 hp hs3
  rw [JoinsInSteps, joinUri_of_parse hp, if_pos hs3, joinUri_of_parse hp, if_pos hs3]
  show joinUri (s3Text _ _) [y] = _
  rw [joinUri_of_parse (parseUri_s3Text hbucket _), if_pos rfl]
  refine congrArg (fun key => Except.ok (s3Text p.bucket key)) (stripDoubleSlashes_congr ?_)
  simp only [names_slashJoin, names_stripDoubleSlashes, names_joinSuffix, List.flatMap_cons,
    List.flatMap_nil, List.append_nil, List.append_assoc]

/-- What is joined at once begins with what is joined first. -/
theorem slashJoin_two (hne : slashJoin root (segText x) ≠ "") :
    (slashJoin root (joinSuffix [x, y]) = slashJoin root (segText x) ∧ partNames y = []) ∨
    ∃ rest, slashJoin root (joinSuffix [x, y]) = slashJoin root (segText x) ++ "/" ++ rest ∧
      names rest = partNames y := by
  have hnames := names_segText y
  rw [joinSuffix_two]
  split_ifs with hx hy
  · rw [segText_of_isBlank hx, slashJoin_empty_right] at hne ⊢
    by_cases hsy : segText y = ""
    · exact Or.inl ⟨by rw [hsy, slashJoin_empty_right], by rw [← hnames, hsy, names_empty]⟩
    · exact Or.inr ⟨segText y, slashJoin_of_ne hne hsy, hnames⟩
  · exact Or.inl ⟨rfl, by rw [← hnames, segText_of_isBlank hy, names_empty]⟩
  · refine Or.inr ?_
    have hboth : segText x ++ "/" ++ segText y ≠ "" := append_slash_ne _ _
    by_cases hroot : root = ""
    · rw [hroot, slashJoin_empty_left, slashJoin_empty_left]
      exact ⟨segText y, rfl, hnames⟩
    · by_cases hsx : segText x = ""
      · refine ⟨segText x ++ "/" ++ segText y, ?_, ?_⟩
        · rw [slashJoin_of_ne hroot hboth, hsx, slashJoin_empty_right]
        · rw [names_append_slash, hsx, names_empty, List.nil_append, hnames]
      · refine ⟨segText y, ?_, hnames⟩
        rw [slashJoin_of_ne hroot hboth, slashJoin_of_ne hroot hsx]
        simp only [String.append_assoc]

/-- A local path that is joined to no URI scheme stays a local path. -/
theorem joinsInSteps_local (hroot : root.toList.getLast? ≠ some '/')
    (hne : slashJoin root (segText x) ≠ "")
    (hs3 : ¬"s3://".toList <+: (slashJoin root (segText x)).toList)
    (hfile : ¬"file://".toList <+: (slashJoin root (segText x)).toList) :
    joinUri (slashJoin root (segText x)) [y] = .ok (slashJoin root (joinSuffix [x, y])) ↔
      Tidy x y := by
  have hlast := getLast?_slashJoin hroot (getLast?_segText x)
  rw [joinUri_of_parse (parseUri_local hne hs3 hfile), if_neg (by simp),
    rstripSlashes_of_getLast? hlast, joinSuffix_one, slashJoin_assoc, Except.ok.injEq]
  constructor
  · intro h
    by_contra htidy
    obtain ⟨hsuffix, hempty⟩ := joinSuffix_two_of_not_tidy htidy
    rw [hsuffix] at h
    have hlength := congrArg (fun t : String => t.toList.length) (slashJoin_left_cancel h)
    simp only [length_append_slash] at hlength
    rcases hempty with hsx | hsy
    · simp [hsx] at hlength
    · simp [hsy] at hlength
  · intro h
    rw [joinSuffix_two_of_tidy h]

/-- A local path that is joined to a file URI loses the scheme. -/
theorem joinsInSteps_file (hroot : root.toList.getLast? ≠ some '/')
    (hfile : "file://".toList <+: (slashJoin root (segText x)).toList) :
    joinUri (slashJoin root (segText x)) [y] ≠ .ok (slashJoin root (joinSuffix [x, y])) := by
  have hlast := getLast?_slashJoin hroot (getLast?_segText x)
  obtain ⟨rest, hrest⟩ := hfile
  have hne : rest ≠ [] := by
    rintro rfl
    rw [← hrest] at hlast
    exact hlast rfl
  have hpath : String.ofList rest ≠ "" := by simpa [← String.toList_inj] using hne
  have htext : (slashJoin root (segText x)).toList =
      "file://".toList ++ (String.ofList rest).toList :=
    hrest.symm.trans (congrArg ("file://".toList ++ ·) String.toList_ofList.symm)
  have hfront : slashJoin root (segText x) ≠ "" := by
    intro hempty
    rw [hempty] at htext
    simp at htext
  rw [htext, List.getLast?_append_of_ne_nil _ (by simpa using hne)] at hlast
  rw [joinUri_of_parse (parseUri_file htext hpath), if_neg (by simp),
    rstripSlashes_of_getLast? hlast, joinSuffix_one]
  intro h
  -- seven characters are missing
  have hlength := congrArg (fun t : String => t.toList.length) (Except.ok.inj h)
  have hfull : (slashJoin (slashJoin root (segText x)) (segText y)).toList.length ≤
      (slashJoin root (joinSuffix [x, y])).toList.length := by
    by_cases htidy : Tidy x y
    · rw [joinSuffix_two_of_tidy htidy, slashJoin_assoc]
    · obtain ⟨hsuffix, -⟩ := joinSuffix_two_of_not_tidy htidy
      rw [hsuffix, slashJoin_assoc]
      simp only [length_slashJoin, length_append_slash, append_slash_ne, or_false]
      by_cases hroot : root = ""
      · simp only [hroot, true_or, if_true]
        split_ifs
        · omega
        · omega
      · rw [if_neg hroot]
        split_ifs
        · omega
        · omega
        · omega
        · omega
  have hseven : "file://".toList.length = 7 := rfl
  rw [length_slashJoin, if_congr (or_iff_right hfront) rfl rfl, htext, List.length_append,
    hseven] at hfull
  simp only [length_slashJoin (String.ofList rest), or_iff_right hpath] at hlength
  omega

/-- A local path that is joined to an S3 URI becomes its canonical form. -/
theorem joinsInSteps_bucket (hs3 : "s3://".toList <+: (slashJoin root (segText x)).toList) :
    joinUri (slashJoin root (segText x)) [y] = .ok (slashJoin root (joinSuffix [x, y])) ↔
      ∃ bucket key, IsBucketName bucket ∧ IsCanonical key ∧
        slashJoin root (joinSuffix [x, y]) = s3Text bucket key := by
  constructor
  · intro h
    cases hparse : parseUri (slashJoin root (segText x)) with
    | error e =>
      rw [joinUri_of_error hparse] at h
      cases h
    | ok p =>
      rw [joinUri_of_parse hparse] at h
      rcases parseUri_cases hparse with ⟨hp, hbucket, -, -⟩ | ⟨path, rfl, -, hnot, -⟩
      · rw [if_pos hp] at h
        exact ⟨p.bucket, _, hbucket, isCanonical_stripDoubleSlashes, (Except.ok.inj h).symm⟩
      · exact absurd hs3 hnot
  · rintro ⟨bucket, key, hbucket, hkey, htext⟩
    have hne : slashJoin root (segText x) ≠ "" := by
      intro hempty
      rw [hempty] at hs3
      exact absurd hs3 (by decide)
    -- whatever the first join reads as the key, joining the rest gives the names of the whole
    have hstep : ∀ front, parseUri (slashJoin root (segText x)) =
        .ok ⟨true, bucket, stripDoubleSlashes front, s3Text bucket (stripDoubleSlashes front)⟩ →
        names front ++ partNames y = names key →
        joinUri (slashJoin root (segText x)) [y] = .ok (slashJoin root (joinSuffix [x, y])) := by
      intro front hparse hnames
      have hsame : stripDoubleSlashes (slashJoin (stripDoubleSlashes front) (joinSuffix [y])) =
          stripDoubleSlashes key := by
        refine stripDoubleSlashes_congr ?_
        rw [names_slashJoin, names_stripDoubleSlashes, joinSuffix_one, names_segText, hnames]
      rw [joinUri_of_parse hparse, if_pos rfl, htext, hsame,
        stripDoubleSlashes_eq_self_iff.mpr hkey]
    rcases slashJoin_two hne with ⟨hsame, hy⟩ | ⟨rest, hmore, hrest⟩
    · refine hstep key ?_ (by rw [hy, List.append_nil])
      rw [← hsame, htext]
      exact parseUri_s3Text hbucket key
    · -- the bucket and the first names of the key are in front of the slash
      obtain ⟨front, hfront⟩ := hs3
      have hslash : front ++ '/' :: rest.toList = bucket.toList ++ '/' :: key.toList := by
        have hlists := congrArg String.toList (hmore.symm.trans htext)
        rw [String.toList_append, String.toList_append, ← hfront] at hlists
        have hscheme : "s3://".toList ++ (front ++ '/' :: rest.toList) =
            "s3://".toList ++ (bucket.toList ++ '/' :: key.toList) := by
          simpa [s3Text, String.toList_append] using hlists
        exact List.append_cancel_left hscheme
      have hword : ∀ c ∈ bucket.toList, decide (c ≠ '/') = true := fun c hc =>
        decide_eq_true fun heq => hbucket.2 (heq ▸ hc)
      have htake : String.ofList (front.takeWhile (· ≠ '/')) = bucket := by
        rw [← takeWhile_append_slash front rest.toList, hslash,
          takeWhile_append_slash, List.takeWhile_eq_self_iff.mpr hword, String.ofList_toList]
      have hpieces := congrArg (fun cs => pieces '/' ((cs.dropWhile (· ≠ '/')).drop 1)) hslash
      simp only [pieces_drop_append_slash, List.dropWhile_eq_nil_iff.mpr hword, List.drop_nil,
        pieces_nil, List.nil_append] at hpieces
      have hafter : afterScheme "s3://" (slashJoin root (segText x)) = some front := by
        rw [afterScheme, ← hfront, if_pos (List.prefix_append _ _), List.drop_left]
      refine hstep (String.ofList ((front.dropWhile (· ≠ '/')).drop 1)) ?_ ?_
      · rw [parseUri, if_neg hne, hafter]
        simp only [htake, if_neg hbucket.1]
      · rw [← hrest, names_ofList, names_eq_pieces rest, names_eq_pieces key, ← List.map_append,
          hpieces]

/-- Two joins give what one gives, unless the base is local and the first join loses something. -/
theorem joinsInSteps_iff (base x y : String) : JoinsInSteps base x y ↔
    ∀ p, parseUri base = .ok p → p.isS3 = false → LocalSteps (rstripSlashes p.key) x y := by
  cases hparse : parseUri base with
  | error e =>
    refine iff_of_true ?_ nofun
    rw [JoinsInSteps, joinUri_of_error hparse, joinUri_of_error hparse]
    rfl
  | ok p =>
    by_cases hs3 : p.isS3 = true
    · refine iff_of_true (joinsInSteps_s3 hparse hs3 x y) fun q hq hlocal => ?_
      obtain rfl := Except.ok.inj hq
      rw [hs3] at hlocal
      cases hlocal
    · have hroot := getLast?_rstripSlashes p.key
      -- a local base is never refused, so the first join can be carried out
      have hsteps : JoinsInSteps base x y ↔
          joinUri (slashJoin (rstripSlashes p.key) (segText x)) [y] =
            .ok (slashJoin (rstripSlashes p.key) (joinSuffix [x, y])) := by
        rw [JoinsInSteps, joinUri_of_parse hparse, joinUri_of_parse hparse, if_neg hs3, if_neg hs3,
          joinSuffix_one]
        rfl
      have hone : (∀ q, (.ok p : Except String ParsedUri) = .ok q → q.isS3 = false →
          LocalSteps (rstripSlashes q.key) x y) ↔ LocalSteps (rstripSlashes p.key) x y :=
        ⟨fun h => h p rfl (Bool.eq_false_iff.mpr hs3), fun h q hq _ => Except.ok.inj hq ▸ h⟩
      rw [hsteps, hone]
      constructor
      · intro h
        have hne : slashJoin (rstripSlashes p.key) (segText x) ≠ "" := by
          intro hempty
          rw [hempty] at h
          cases h
        have hfile : ¬"file://".toList <+: (slashJoin (rstripSlashes p.key) (segText x)).toList :=
          fun hfile => joinsInSteps_file hroot hfile h
        exact ⟨hne, hfile, fun hno => (joinsInSteps_local hroot hne hno hfile).mp h,
          fun hyes => (joinsInSteps_bucket hyes).mp h⟩
      · intro h
        by_cases hyes : "s3://".toList <+: (slashJoin (rstripSlashes p.key) (segText x)).toList
        · exact (joinsInSteps_bucket hyes).mpr (h.canonical hyes)
        · exact (joinsInSteps_local hroot h.nonempty hyes h.noFile).mpr (h.tidy hyes)

/-- A canonical key and what is joined to it. -/
theorem atOrBelow_slashJoin {key : String} (hkey : IsCanonical key) (suffix : String) :
    stripDoubleSlashes (slashJoin key suffix) = key ∨
      IsBelow key (stripDoubleSlashes (slashJoin key suffix)) := by
  by_cases hempty : key = ""
  · exact Or.inr (Or.inl hempty)
  · by_cases hnone : names suffix = []
    · refine Or.inl ?_
      have hsame : names (slashJoin key suffix) = names key := by simp [hnone]
      rw [stripDoubleSlashes_congr hsame, stripDoubleSlashes_eq_self_iff.mpr hkey]
    · refine Or.inr (Or.inr ?_)
      have hkeys : names key ≠ [] := by
        intro hnil
        have htext := eq_intercalate_names hkey
        rw [hnil] at htext
        exact hempty htext
      have hjoined := eq_intercalate_names
        (isCanonical_stripDoubleSlashes : IsCanonical (stripDoubleSlashes (slashJoin key suffix)))
      have hslash : "/".toList = ['/'] := rfl
      have hfront := congrArg String.toList (eq_intercalate_names hkey)
      rw [String.toList_intercalate, hslash] at hfront
      rw [names_stripDoubleSlashes, names_slashJoin] at hjoined
      rw [hjoined, String.toList_intercalate, hslash, List.map_append,
        intercalate_append_cons (by simpa using hkeys) (by simpa using hnone), ← hfront,
        String.toList_append, hslash]
      exact ⟨_, by rw [List.append_assoc]; rfl⟩

/-- What is joined to an S3 base is below it. -/
theorem joinsBelow_s3 (hp : parseUri base = .ok p) (hs3 : p.isS3 = true) (parts : List String) :
    ∃ j q, joinUri base parts = .ok j ∧ parseUri j = .ok q ∧ AtOrBelow p q := by
  obtain ⟨hbucket, hkey⟩ := parseUri_isS3 hp hs3
  have hjoin := joinUri_of_parse hp parts
  rw [if_pos hs3] at hjoin
  refine ⟨_, _, hjoin, parseUri_s3Text hbucket _, ?_⟩
  rw [AtOrBelow, if_pos hs3, stripDoubleSlashes_eq_self_iff.mpr isCanonical_stripDoubleSlashes]
  exact ⟨rfl, rfl, atOrBelow_slashJoin hkey _⟩

/-- When what is joined to an absolute local path stays below it. -/
def LocalBelow (path : String) (parts : List String) : Prop :=
  if rstripSlashes path = "" then
    -- the root is dropped, so the segments themselves must be an absolute path
    "/".toList <+: (joinSuffix parts).toList ∨ "file:///".toList <+: (joinSuffix parts).toList
  else localPlace path <+:
    resolve (localPlace path) ((parts.flatMap partNames).filter (· ≠ "."))

theorem absolute_ofText_iff (path : String) :
    (PurePath.ofText path).absolute = true ↔ path.toList.head? = some '/' := by
  simp [PurePath.ofText]

theorem parseUri_absolute {path : String} (h : path.toList.head? = some '/') :
    parseUri path = .ok ⟨false, "", path, path⟩ := by
  have hscheme : ∀ c cs, c ≠ '/' → ¬(c :: cs) <+: path.toList := by
    rintro c cs hc ⟨rest, hrest⟩
    rw [← hrest] at h
    exact hc (Option.some.inj h)
  have hne : path ≠ "" := by
    rintro rfl
    cases h
  exact parseUri_local hne (hscheme _ _ (by decide)) (hscheme _ _ (by decide))

/-- What is joined to a local path is read back as a path. -/
theorem names_localJoin (path : String) (parts : List String) :
    pathParts (slashJoin (rstripSlashes path) (joinSuffix parts)) =
      pathParts path ++ (parts.flatMap partNames).filter (· ≠ ".") := by
  rw [pathParts_eq_names, names_slashJoin, names_rstripSlashes, names_joinSuffix,
    List.filter_append, ← pathParts_eq_names]

theorem exists_atOrBelow_root {path suffix : String} (hroot : rstripSlashes path = "") :
    (∃ q, parseUri suffix = .ok q ∧ AtOrBelow ⟨false, "", path, path⟩ q) ↔
      "/".toList <+: suffix.toList ∨ "file:///".toList <+: suffix.toList := by
  -- a path of slashes alone is the root, and every absolute path is below it
  have hplace : localPlace path = [] := by
    have hempty : pathParts "" = [] := by decide
    have hparts := pathParts_rstripSlashes path
    rw [hroot, hempty] at hparts
    rw [localPlace, PurePath.place, PurePath.ofText, ← hparts]
    rfl
  have hbelow : ∀ q : ParsedUri, AtOrBelow ⟨false, "", path, path⟩ q ↔
      q.isS3 = false ∧ q.key.toList.head? = some '/' := by
    intro q
    simp [AtOrBelow, hplace, absolute_ofText_iff]
  simp only [hbelow]
  constructor
  · rintro ⟨q, hq, hs3, habs⟩
    rcases parseUri_cases hq with ⟨hyes, -⟩ | ⟨key, rfl, -, -, htext⟩
    · rw [hs3] at hyes
      cases hyes
    · obtain ⟨rest, hrest⟩ := List.head?_eq_some_iff.mp habs
      rcases htext with hfile | ⟨rfl, -⟩
      · exact Or.inr ⟨rest, by rw [hfile, hrest]; rfl⟩
      · exact Or.inl ⟨rest, hrest.symm⟩
  · rintro (⟨rest, hrest⟩ | ⟨rest, hrest⟩)
    · have hhead : suffix.toList.head? = some '/' := by
        rw [← hrest]
        rfl
      exact ⟨_, parseUri_absolute hhead, rfl, hhead⟩
    · have htext : suffix.toList = "file://".toList ++ (String.ofList ('/' :: rest)).toList := by
        rw [← hrest]
        exact congrArg ("file://".toList ++ ·) String.toList_ofList.symm
      have hne : String.ofList ('/' :: rest) ≠ "" := by simp [← String.toList_inj]
      exact ⟨_, parseUri_file htext hne, rfl, by simp⟩

theorem joinsBelow_iff (base : String) (parts : List String) : JoinsBelow base parts ↔
    ∀ p, parseUri base = .ok p → p.isS3 = false → (PurePath.ofText p.key).absolute = true →
      LocalBelow p.key parts := by
  refine forall_congr' fun p => forall_congr' fun hp => ?_
  rcases parseUri_cases hp with ⟨hs3, -⟩ | ⟨path, rfl, -⟩
  · refine iff_of_true (fun _ => joinsBelow_s3 hp hs3 parts) fun hlocal => ?_
    rw [hs3] at hlocal
    cases hlocal
  · simp only [Bool.false_eq_true, false_or, forall_const]
    refine forall_congr' fun habs => ?_
    have hjoin := joinUri_of_parse hp parts
    rw [if_neg (by simp)] at hjoin
    -- the join of a local base does not fail
    have hone : (∃ j q, joinUri base parts = .ok j ∧ parseUri j = .ok q ∧
        AtOrBelow ⟨false, "", path, path⟩ q) ↔
        ∃ q, parseUri (slashJoin (rstripSlashes path) (joinSuffix parts)) = .ok q ∧
          AtOrBelow ⟨false, "", path, path⟩ q := by
      constructor
      · rintro ⟨j, q, hj, h⟩
        rw [Except.ok.inj (hj.symm.trans hjoin)] at h
        exact ⟨q, h⟩
      · rintro ⟨q, h⟩
        exact ⟨_, q, hjoin, h⟩
    rw [hone, LocalBelow]
    split_ifs with hroot
    · rw [hroot, slashJoin_empty_left, exists_atOrBelow_root hroot]
    · -- the joined path begins where the base does
      have hhead : (slashJoin (rstripSlashes path) (joinSuffix parts)).toList.head? =
          some '/' := by
        obtain ⟨more, hmore⟩ : (rstripSlashes path).toList <+: path.toList := by
          rw [rstripSlashes, String.toList_ofList]
          exact List.rdropWhile_prefix _ _
        obtain ⟨c, cs, hcs⟩ :=
          List.exists_cons_of_ne_nil fun hnil => hroot (String.toList_inj.mp hnil)
        have hfirst := (absolute_ofText_iff path).mp habs
        rw [← hmore, hcs] at hfirst
        rw [slashJoin]
        split_ifs with hboth hsuffix
        · simpa [String.toList_append, hcs] using hfirst
        · exact absurd ⟨hroot, hsuffix⟩ hboth
        · rw [hcs]
          exact hfirst
      have hkey : localPlace (slashJoin (rstripSlashes path) (joinSuffix parts)) =
          resolve (localPlace path) ((parts.flatMap partNames).filter (· ≠ ".")) := by
        simp only [localPlace, PurePath.place, PurePath.ofText, names_localJoin, resolve_append]
      constructor
      · rintro ⟨q, hq, hbelow⟩
        rw [Except.ok.inj (hq.symm.trans (parseUri_absolute hhead))] at hbelow
        rw [← hkey]
        exact hbelow.2.2
      · intro hplace
        rw [← hkey] at hplace
        exact ⟨_, parseUri_absolute hhead, rfl, (absolute_ofText_iff _).mpr hhead, hplace⟩

end Joining

/-- Where the laws hold that layers rely on which compose lake paths. -/
theorem uriAlgebra_iff (u base x y : String) (parts : List String) :
    (ParsesBack u ↔ ∀ rest, u.toList = "file://".toList ++ rest →
      ¬"s3://".toList <+: rest ∧ ¬"file://".toList <+: rest) ∧
    (JoinsInSteps base x y ↔ ∀ p, parseUri base = .ok p → p.isS3 = false →
      LocalSteps (rstripSlashes p.key) x y) ∧
    (JoinsNothing base ↔ ∀ p, parseUri base = .ok p →
      p.isS3 = true ∨ p.key.toList.getLast? ≠ some '/') ∧
    (JoinsBelow base parts ↔ ∀ p, parseUri base = .ok p → p.isS3 = false →
      (PurePath.ofText p.key).absolute = true → LocalBelow p.key parts) :=
  ⟨parsesBack_iff u, joinsInSteps_iff base x y, joinsNothing_iff base, joinsBelow_iff base parts⟩

/-- What is joined to the root directory is relative. -/
theorem not_joinsBelow_root :
    ¬∀ (u base x y : String) (parts : List String), ParsesBack u ∧ JoinsInSteps base x y ∧
      JoinsNothing base ∧ JoinsBelow base parts := by
  intro h
  obtain ⟨-, -, -, hbelow⟩ := h "/" "/" "a" "b" ["tmp"]
  have hparse : parseUri "/" = .ok ⟨false, "", "/", "/"⟩ := by decide
  have hlocal := (joinsBelow_iff "/" ["tmp"]).mp hbelow _ hparse rfl (by decide)
  rw [LocalBelow, if_pos (by decide)] at hlocal
  exact absurd hlocal (by decide)

end RobotDataHarness.Lake

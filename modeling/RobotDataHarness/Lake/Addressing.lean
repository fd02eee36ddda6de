import RobotDataHarness.Lake.S3Store

/-!
# Listing an S3 lake store and addressing what is listed

`list` returns the keys of a bucket as they are, while every operation on a URI first brings its
key into canonical form, and a key that is an object hides what lies below it.

- `s3List_cases`: what a list returns;
- `listingAgrees_iff`: the buckets and URIs for which listing and addressing agree.
-/

namespace RobotDataHarness.Lake

open RobotDataHarness.Library

section Agreement

variable (buckets : String → Bucket)

/-- The key lies below the directory key. -/
def IsBelow (dir key : String) : Prop := dir = "" ∨ (dir ++ "/").toList <+: key.toList

instance (dir key : String) : Decidable (IsBelow dir key) := inferInstanceAs (Decidable (_ ∨ _))

/-- The object is at the key or below it. -/
def IsAtOrBelow (key : String) (o : S3Object) : Prop := o.key = key ∨ IsBelow key o.key

/-- What the other operations make of the URI of an object. -/
structure Addresses (bucket : String) (o : S3Object) : Prop where
  exists_ : s3Exists buckets (s3Text bucket o.key) = .ok true
  reads : ∀ decode, s3ReadText buckets decode (s3Text bucket o.key) = decode o.body
  downloads : ∀ filter, downloadPlan buckets (s3Text bucket o.key) filter =
    .ok (.sole o.key (baseKey o.key))
  writes : s3WriteTarget (s3Text bucket o.key) = .ok (bucket, o.key)

/-- Listing agrees with addressing at a URI: what is listed are the objects at its key or below it,
each under a URI that leads back to it, and no two under URIs of one key. -/
structure ListingAgrees (uri : String) (p : ParsedUri) : Prop where
  listed : ∃ us, s3List buckets uri = .ok us ∧
    ∀ u, u ∈ us ↔ ∃ o ∈ (buckets p.bucket).rows, IsAtOrBelow p.key o ∧ u = s3Text p.bucket o.key
  addressed : ∀ us, s3List buckets uri = .ok us → ∀ o ∈ (buckets p.bucket).rows,
    s3Text p.bucket o.key ∈ us → Addresses buckets p.bucket o
  distinct : ∀ us, s3List buckets uri = .ok us →
    ∀ o ∈ (buckets p.bucket).rows, ∀ o' ∈ (buckets p.bucket).rows,
      s3Text p.bucket o.key ∈ us → s3Text p.bucket o'.key ∈ us → o ≠ o' →
      (s3Parse (s3Text p.bucket o.key)).map ParsedUri.key ≠
        (s3Parse (s3Text p.bucket o'.key)).map ParsedUri.key

/-- The key is no object with others below it, and the keys at and below it are canonical. -/
structure PlainAt (p : ParsedUri) : Prop where
  leaf : ∀ o ∈ (buckets p.bucket).rows, o.key = p.key →
    ∀ o' ∈ (buckets p.bucket).rows, ¬IsBelow p.key o'.key
  canonical : ∀ o ∈ (buckets p.bucket).rows, IsAtOrBelow p.key o → IsCanonical o.key

variable {buckets} {uri : String} {p : ParsedUri} {bucket : String} {o : S3Object}

variable (buckets) in
/-- A key that is not empty is looked for as an object first. -/
theorem s3List_of_key (hp : s3Parse uri = .ok p) (hne : p.key ≠ "") :
    s3List buckets uri = .ok (if ((buckets p.bucket).get? p.key).isSome
      then [s3Text p.bucket p.key]
      else (listObjects buckets p.bucket (p.key ++ "/")).map fun o => s3Text p.bucket o.key) := by
  obtain ⟨hbucket, hkey⟩ := of_s3Parse hp
  have hsole : s3Parse (s3Text p.bucket p.key) =
      .ok ⟨true, p.bucket, p.key, s3Text p.bucket p.key⟩ := by
    rw [s3Parse_s3Text hbucket, stripDoubleSlashes_eq_self_iff.mpr hkey]
  have hopen : p.key ≠ "" ∧ p.key.toList.getLast? ≠ some '/' := ⟨hne, hkey.last⟩
  simp only [s3List, hp, bind, Except.bind]
  rw [if_pos hopen, s3Exists_of_parse hsole hne]
  simp only
  split <;> rfl

theorem s3List_of_root (hp : s3Parse uri = .ok p) (hroot : p.key = "") :
    s3List buckets uri =
      .ok ((listObjects buckets p.bucket "").map fun o => s3Text p.bucket o.key) := by
  have hshut : ¬(p.key ≠ "" ∧ p.key.toList.getLast? ≠ some '/') := fun h => h.1 hroot
  simp only [s3List, hp, bind, Except.bind]
  rw [if_neg hshut, hroot]

/-- The URI of an object with a canonical key leads back to the object. -/
theorem addresses_of_isCanonical (hbucket : IsBucketName bucket) (ho : o ∈ (buckets bucket).rows)
    (hkey : IsCanonical o.key) : Addresses buckets bucket o := by
  have hparse : s3Parse (s3Text bucket o.key) =
      .ok ⟨true, bucket, o.key, s3Text bucket o.key⟩ := by
    rw [s3Parse_s3Text hbucket, stripDoubleSlashes_eq_self_iff.mpr hkey]
  have hget : (buckets bucket).get? o.key = some o := KeyedTable.get?_key ho
  have hsome : ((buckets bucket).get? o.key).isSome = true := by rw [hget]; rfl
  refine ⟨?_, fun decode => ?_, fun filter => ?_, ?_⟩
  · rw [s3Exists_of_parse hparse o.named, hsome]
  · simp only [s3ReadText, hparse, bind, Except.bind, hget]
  · rw [downloadPlan_of_key buckets hparse o.named, if_pos hsome]
  · simp only [s3WriteTarget, hparse, bind, Except.bind]
    rfl

/-- What a write to the URI of an object addresses is the canonical form of its key. -/
theorem s3WriteTarget_s3Text (hbucket : IsBucketName bucket) {key : String} :
    s3WriteTarget (s3Text bucket key) = .ok (bucket, stripDoubleSlashes key) := by
  simp only [s3WriteTarget, s3Parse_s3Text hbucket, bind, Except.bind]
  rfl

/-- A list returns the object at the key, or, if there is none, the objects below it. -/
theorem s3List_cases (hp : s3Parse uri = .ok p) :
    (∃ o ∈ (buckets p.bucket).rows, o.key = p.key ∧
        s3List buckets uri = .ok [s3Text p.bucket p.key]) ∨
      (∀ o ∈ (buckets p.bucket).rows, o.key ≠ p.key) ∧ ∃ us, s3List buckets uri = .ok us ∧
        ∀ u, u ∈ us ↔ ∃ o ∈ (buckets p.bucket).rows, IsBelow p.key o.key ∧
          u = s3Text p.bucket o.key := by
  by_cases hroot : p.key = ""
  · -- the whole bucket
    right
    refine ⟨fun o _ ho => o.named (ho.trans hroot), _, s3List_of_root hp hroot, fun u => ?_⟩
    simp only [List.mem_map, listObjects, List.mem_filter, IsBelow, hroot, true_or, true_and]
    constructor
    · rintro ⟨o, ⟨ho, -⟩, rfl⟩
      exact ⟨o, ho, rfl⟩
    · rintro ⟨o, ho, rfl⟩
      exact ⟨o, ⟨ho, by simp⟩, rfl⟩
  · have hlist := s3List_of_key buckets hp hroot
    cases hget : (buckets p.bucket).get? p.key with
    | some o =>
      left
      obtain ⟨ho, hok⟩ := KeyedTable.get?_eq_some_iff.mp hget
      rw [hget] at hlist
      exact ⟨o, ho, hok, hlist⟩
    | none =>
      right
      rw [hget] at hlist
      refine ⟨KeyedTable.get?_eq_none_iff.mp hget, _, hlist, fun u => ?_⟩
      simp only [Option.isSome_none, Bool.false_eq_true, if_false, List.mem_map, listObjects,
        List.mem_filter, IsBelow, hroot, false_or, List.isPrefixOf_iff_prefix]
      constructor
      · rintro ⟨o, ⟨ho, hpre⟩, rfl⟩
        exact ⟨o, ho, hpre, rfl⟩
      · rintro ⟨o, ho, hpre, rfl⟩
        exact ⟨o, ⟨ho, hpre⟩, rfl⟩

/-- A key does not lie below itself. -/
theorem not_isBelow_self {key : String} (hne : key ≠ "") : ¬IsBelow key key := by
  rintro (h | h)
  · exact hne h
  · have hlen := h.length_le
    simp [String.toList_append] at hlen

end Agreement

/-- Listing agrees with addressing exactly when the URI's key is no object with others below it,
and every key at it or below it is canonical. -/
theorem listingAgrees_iff (buckets : String → Bucket) (uri : String) :
    (∀ p, s3Parse uri = .ok p → ListingAgrees buckets uri p) ↔
      ∀ p, s3Parse uri = .ok p → PlainAt buckets p := by
  refine forall_congr' fun p => forall_congr' fun hp => ?_
  obtain ⟨hbucket, -⟩ := of_s3Parse hp
  constructor
  · rintro ⟨⟨us, hlist, hus⟩, haddr, -⟩
    constructor
    · intro o ho hkey o' ho' hbelow
      have hne : p.key ≠ "" := fun h => o.named (hkey.trans h)
      rcases s3List_cases hp with ⟨_, -, -, hsole⟩ | ⟨hnone, -⟩
      · -- the object at the key hides the one below it
        rw [hlist] at hsole
        cases hsole
        have hmem : s3Text p.bucket o'.key ∈ [s3Text p.bucket p.key] :=
          (hus _).mpr ⟨o', ho', .inr hbelow, rfl⟩
        have heq := s3Text_injective (List.mem_singleton.mp hmem)
        rw [heq] at hbelow
        exact not_isBelow_self hne hbelow
      · exact hnone o ho hkey
    · intro o ho hat
      -- a key is written where it is addressed, that is in its canonical form
      have hwrites := (haddr us hlist o ho ((hus _).mpr ⟨o, ho, hat, rfl⟩)).writes
      rw [s3WriteTarget_s3Text hbucket] at hwrites
      have hkey : stripDoubleSlashes o.key = o.key := (Prod.mk.inj (Except.ok.inj hwrites)).2
      exact stripDoubleSlashes_eq_self_iff.mp hkey
  · rintro ⟨hleaf, hcanon⟩
    -- where no object has others below it, the two ways to list give the same
    have hlisted : ∃ us, s3List buckets uri = .ok us ∧ ∀ u, u ∈ us ↔
        ∃ o ∈ (buckets p.bucket).rows, IsAtOrBelow p.key o ∧ u = s3Text p.bucket o.key := by
      rcases s3List_cases hp with ⟨o, ho, hkey, hsole⟩ | ⟨hnone, us, hlist, hus⟩
      · refine ⟨_, hsole, fun u => ?_⟩
        rw [List.mem_singleton]
        constructor
        · rintro rfl
          exact ⟨o, ho, .inl hkey, by rw [hkey]⟩
        · rintro ⟨o', ho', hat | hbelow, rfl⟩
          · rw [hat]
          · exact absurd hbelow (hleaf o ho hkey o' ho')
      · refine ⟨us, hlist, fun u => (hus u).trans ?_⟩
        constructor
        · rintro ⟨o, ho, hbelow, rfl⟩
          exact ⟨o, ho, .inr hbelow, rfl⟩
        · rintro ⟨o, ho, hat | hbelow, rfl⟩
          · exact absurd hat (hnone o ho)
          · exact ⟨o, ho, hbelow, rfl⟩
    -- whatever is listed has a canonical key, and so an address of its own
    have hkeys : ∀ us, s3List buckets uri = .ok us → ∀ o ∈ (buckets p.bucket).rows,
        s3Text p.bucket o.key ∈ us → IsCanonical o.key := by
      intro us hlist o ho hmem
      obtain ⟨us', hlist', hus'⟩ := hlisted
      rw [hlist] at hlist'
      cases hlist'
      obtain ⟨o', ho', hat, heq⟩ := (hus' _).mp hmem
      rw [s3Text_injective heq]
      exact hcanon o' ho' hat
    refine ⟨hlisted, fun us hlist o ho hmem => ?_, fun us hlist o ho o' ho' hmem hmem' hne => ?_⟩
    · exact addresses_of_isCanonical hbucket ho (hkeys us hlist o ho hmem)
    · rw [s3Parse_s3Text hbucket, s3Parse_s3Text hbucket,
        stripDoubleSlashes_eq_self_iff.mpr (hkeys us hlist o ho hmem),
        stripDoubleSlashes_eq_self_iff.mpr (hkeys us hlist o' ho' hmem')]
      intro heq
      have hkey : o.key = o'.key := Except.ok.inj heq
      exact hne (List.inj_on_of_nodup_map (buckets p.bucket).nodup ho ho' hkey)

/-- A bucket in which a key is an object and has another one below it. -/
def shadowedBucket : Bucket :=
  ⟨[⟨"raw/a", [1], by decide⟩, ⟨"raw/a/b", [2], by decide⟩, ⟨"raw//c", [3], by decide⟩], by decide⟩

/-- An object hides those below it, and a key with an empty part is listed under a URI that leads
elsewhere. -/
theorem shadowed_listing_disagrees :
    (¬∀ p, s3Parse "s3://lake/raw/a" = .ok p →
        ListingAgrees (fun _ => shadowedBucket) "s3://lake/raw/a" p) ∧
      ¬∀ p, s3Parse "s3://lake/raw" = .ok p →
        ListingAgrees (fun _ => shadowedBucket) "s3://lake/raw" p := by
  constructor
  · intro h
    have hagrees := h ⟨true, "lake", "raw/a", "s3://lake/raw/a"⟩ rfl
    obtain ⟨us, hlist, hus⟩ := hagrees.listed
    have hsole : s3List (fun _ => shadowedBucket) "s3://lake/raw/a" = .ok ["s3://lake/raw/a"] := rfl
    rw [hlist] at hsole
    cases hsole
    have hmem := (hus "s3://lake/raw/a/b").mpr
      ⟨⟨"raw/a/b", [2], by decide⟩, by simp [shadowedBucket], .inr (by decide +kernel),
        by decide +kernel⟩
    revert hmem
    decide +kernel
  · intro h
    have hagrees := h ⟨true, "lake", "raw", "s3://lake/raw"⟩ rfl
    have hlist : s3List (fun _ => shadowedBucket) "s3://lake/raw" =
        .ok ["s3://lake/raw/a", "s3://lake/raw/a/b", "s3://lake/raw//c"] := rfl
    have haddr := hagrees.addressed _ hlist ⟨"raw//c", [3], by decide⟩ (by simp [shadowedBucket])
      (by decide +kernel)
    have hwrites := haddr.writes
    revert hwrites
    decide +kernel

end RobotDataHarness.Lake

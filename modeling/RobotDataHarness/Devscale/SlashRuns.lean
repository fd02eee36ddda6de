import RobotDataHarness.Devscale.Plan

/-!
# Runs of slashes in a source URI

The URI a file is copied from is put together from texts and then cleaned by two replacements: every
two slashes become one, and one is put back behind `s3:`. Both work on one run of slashes at a time.

- `cleanUri_run`: how many slashes come out of a run;
- `cleanUri_run_eq_iff`: when a run becomes the one it should be, and the rest is left alone;
- `cleanUri_eq_self_iff`: the texts it leaves alone.
-/

namespace RobotDataHarness.Devscale

/-- `.replace("//", "/").replace("s3:/", "s3://")`. -/
def cleanUri (uri : Text) : Text := restoreScheme (squeezeSlashes uri)

/-- What comes out of a run of `n` slashes behind a text. -/
def outRun (before : Text) (n : ℕ) : ℕ :=
  (n + 1) / 2 + if "s3:".toList <:+ before then 1 else 0

/-- Every run is a single slash, and one behind `s3:` has two or three. -/
def SettledRuns (uri : Text) : Prop :=
  ∀ a n b, uri = a ++ List.replicate n '/' ++ b → 0 < n → a.getLast? ≠ some '/' →
    b.head? ≠ some '/' → if "s3:".toList <:+ a then n = 2 ∨ n = 3 else n = 1

section Squeeze

variable {a b u : Text} {c : Char} {n : ℕ}

theorem getLast?_of_cons {cs : Text} (h : (c :: cs).getLast? ≠ some '/') :
    cs.getLast? ≠ some '/' := by
  cases cs with
  | nil => exact nofun
  | cons d cs => rwa [List.getLast?_cons_cons] at h

theorem squeezeSlashes_pair (cs : Text) :
    squeezeSlashes ('/' :: '/' :: cs) = '/' :: squeezeSlashes cs :=
  rfl

theorem squeezeSlashes_cons {cs : Text} (h : c ≠ '/' ∨ cs.head? ≠ some '/') :
    squeezeSlashes (c :: cs) = c :: squeezeSlashes cs := by
  rw [squeezeSlashes]
  rintro rest rfl rfl
  rcases h with h | h
  · exact h rfl
  · exact h rfl

/-- Induction along the pairs of slashes. -/
theorem squeezeSlashes_induction {motive : Text → Prop}
    (pair : ∀ cs, motive cs → motive ('/' :: '/' :: cs))
    (cons : ∀ c cs, (c ≠ '/' ∨ cs.head? ≠ some '/') → motive cs → motive (c :: cs))
    (nil : motive []) (u : Text) : motive u := by
  refine squeezeSlashes.induct motive pair (fun c cs hne ih => cons c cs ?_ ih) nil u
  by_contra hboth
  simp only [not_or, not_not] at hboth
  obtain ⟨rest, rfl⟩ : ∃ rest, cs = '/' :: rest := by
    cases cs with
    | nil => exact absurd hboth.2 nofun
    | cons d rest => exact ⟨rest, by rw [Option.some.inj hboth.2]⟩
  exact hne rest hboth.1 rfl

theorem squeezeSlashes_append (ha : a.getLast? ≠ some '/') (b : Text) :
    squeezeSlashes (a ++ b) = squeezeSlashes a ++ squeezeSlashes b := by
  induction a using squeezeSlashes_induction with
  | pair cs ih =>
    show squeezeSlashes ('/' :: '/' :: (cs ++ b)) = squeezeSlashes ('/' :: '/' :: cs) ++ _
    rw [squeezeSlashes_pair, squeezeSlashes_pair, ih (getLast?_of_cons (getLast?_of_cons ha)),
      List.cons_append]
  | cons c cs hne ih =>
    have hhead' : c ≠ '/' ∨ (cs ++ b).head? ≠ some '/' := by
      rcases hne with h | h
      · exact Or.inl h
      · cases cs with
        | nil => exact Or.inl fun hc => ha (by rw [hc]; rfl)
        | cons d rest => exact Or.inr h
    rw [List.cons_append, squeezeSlashes_cons hhead', squeezeSlashes_cons hne,
      ih (getLast?_of_cons ha), List.cons_append]
  | nil => rfl

theorem squeezeSlashes_run (n : ℕ) (hb : b.head? ≠ some '/') :
    squeezeSlashes (List.replicate n '/' ++ b) =
      List.replicate ((n + 1) / 2) '/' ++ squeezeSlashes b := by
  induction n using Nat.twoStepInduction with
  | zero => rfl
  | one => exact squeezeSlashes_cons (Or.inr hb)
  | more n ih _ =>
    have hhalf : (n + 2 + 1) / 2 = (n + 1) / 2 + 1 := by omega
    rw [hhalf, List.replicate_succ, List.replicate_succ, List.replicate_succ]
    show squeezeSlashes ('/' :: '/' :: (List.replicate n '/' ++ b)) = _
    rw [squeezeSlashes_pair, ih, List.cons_append]

theorem squeezeSlashes_of_notMem (h : '/' ∉ u) : squeezeSlashes u = u := by
  induction u with
  | nil => rfl
  | cons c cs ih =>
    rw [List.mem_cons, not_or] at h
    rw [squeezeSlashes_cons (Or.inl (Ne.symm h.1)), ih h.2]

theorem mem_squeezeSlashes {d : Char} : d ∈ squeezeSlashes u ↔ d ∈ u := by
  induction u using squeezeSlashes_induction with
  | pair cs ih =>
    rw [squeezeSlashes_pair, List.mem_cons, ih]
    simp
  | cons c cs hne ih => rw [squeezeSlashes_cons hne, List.mem_cons, ih, List.mem_cons]
  | nil => exact Iff.rfl

theorem head?_squeezeSlashes (u : Text) : (squeezeSlashes u).head? = u.head? := by
  cases u using squeezeSlashes_induction with
  | pair cs => rfl
  | cons c cs hne => rw [squeezeSlashes_cons hne]; rfl
  | nil => rfl

theorem getLast?_squeezeSlashes (u : Text) : (squeezeSlashes u).getLast? = u.getLast? := by
  induction u using squeezeSlashes_induction with
  | pair cs ih =>
    rw [squeezeSlashes_pair]
    cases cs with
    | nil => rfl
    | cons d ds => rw [List.getLast?_cons, ih]; simp [List.getLast?_cons]
  | cons c cs hne ih =>
    rw [squeezeSlashes_cons hne, List.getLast?_cons, ih, List.getLast?_cons]
  | nil => rfl

theorem filter_squeezeSlashes (u : Text) :
    (squeezeSlashes u).filter (· ≠ '/') = u.filter (· ≠ '/') := by
  induction u using squeezeSlashes_induction with
  | pair cs ih =>
    rw [squeezeSlashes_pair]
    simpa using ih
  | cons c cs hne ih =>
    rw [squeezeSlashes_cons hne, List.filter_cons, ih, List.filter_cons]
  | nil => rfl

/-- A word at the end of a text stays there. -/
theorem isSuffix_squeezeSlashes_iff {w : Text} (hw : '/' ∉ w) :
    w <:+ squeezeSlashes u ↔ w <:+ u := by
  induction u using squeezeSlashes_induction with
  | pair cs ih =>
    have hslash : ∀ t : Text, w <:+ '/' :: t ↔ w <:+ t := by
      intro t
      rw [List.suffix_cons_iff]
      exact or_iff_right fun h => hw (h ▸ List.mem_cons_self)
    rw [squeezeSlashes_pair, hslash, ih, hslash, hslash]
  | cons c cs hne ih =>
    rw [squeezeSlashes_cons hne, List.suffix_cons_iff, List.suffix_cons_iff, ih]
    refine or_congr_left ?_
    constructor
    · intro h
      have hcs : '/' ∉ cs := fun hmem =>
        hw (h ▸ List.mem_cons_of_mem c (mem_squeezeSlashes.mpr hmem))
      rwa [squeezeSlashes_of_notMem hcs] at h
    · intro h
      have hcs : '/' ∉ cs := fun hmem => hw (h ▸ List.mem_cons_of_mem c hmem)
      rwa [squeezeSlashes_of_notMem hcs]
  | nil => exact Iff.rfl

end Squeeze

section Restore

variable {a b u : Text} {n : ℕ}

theorem restoreScheme_word (cs : Text) :
    restoreScheme ('s' :: '3' :: ':' :: '/' :: cs) = "s3://".toList ++ restoreScheme cs :=
  rfl

theorem restoreScheme_cons {c : Char} {cs : Text}
    (h : ∀ rest, c = 's' → cs = '3' :: ':' :: '/' :: rest → False) :
    restoreScheme (c :: cs) = c :: restoreScheme cs :=
  restoreScheme.eq_2 c cs h

/-- Induction along the places where the word is looked for. -/
theorem restoreScheme_induction {motive : Text → Prop}
    (word : ∀ cs, motive cs → motive ('s' :: '3' :: ':' :: '/' :: cs))
    (cons : ∀ c cs, (∀ rest, c = 's' → cs = '3' :: ':' :: '/' :: rest → False) → motive cs →
      motive (c :: cs))
    (nil : motive []) (u : Text) : motive u :=
  restoreScheme.induct motive word cons nil u

theorem restoreScheme_slashes (n : ℕ) (b : Text) :
    restoreScheme (List.replicate n '/' ++ b) = List.replicate n '/' ++ restoreScheme b := by
  induction n with
  | zero => rfl
  | succ n ih =>
    rw [List.replicate_succ, List.cons_append, restoreScheme_cons, ih, List.cons_append]
    exact nofun

/-- Where a run begins, `s3:` in front of it is completed. -/
theorem restoreScheme_append (ha : a.getLast? ≠ some '/') (b : Text) :
    restoreScheme (a ++ '/' :: b) =
      restoreScheme a ++ (if "s3:".toList <:+ a then "//".toList else "/".toList) ++
        restoreScheme b := by
  induction a using restoreScheme_induction with
  | word cs ih =>
    have hsuffix : "s3:".toList <:+ 's' :: '3' :: ':' :: '/' :: cs ↔ "s3:".toList <:+ cs := by
      simp [List.suffix_cons_iff]
    have hcs : cs.getLast? ≠ some '/' :=
      getLast?_of_cons (getLast?_of_cons (getLast?_of_cons (getLast?_of_cons ha)))
    show restoreScheme ('s' :: '3' :: ':' :: '/' :: (cs ++ '/' :: b)) = _
    rw [restoreScheme_word, restoreScheme_word, ih hcs, if_congr hsuffix rfl rfl]
    simp only [List.append_assoc]
  | cons c cs hne ih =>
    by_cases hall : c :: cs = "s3:".toList
    · rw [hall]
      rfl
    · have hsuffix : "s3:".toList <:+ c :: cs ↔ "s3:".toList <:+ cs := by
        rw [List.suffix_cons_iff]
        exact or_iff_right fun h => hall h.symm
      -- a match would end at the slash, or in front of it
      have hskip : restoreScheme (c :: (cs ++ '/' :: b)) =
          c :: restoreScheme (cs ++ '/' :: b) := by
        refine restoreScheme_cons ?_
        rintro rest rfl hrest
        have hsplit : cs ++ '/' :: b = ['3', ':'] ++ '/' :: rest := hrest
        rcases List.append_eq_append_iff.mp hsplit with ⟨d, hd, hslash⟩ | ⟨d, rfl, hslash⟩
        · cases d with
          | nil => exact hall (by rw [← List.append_nil cs, ← hd]; rfl)
          | cons e ds =>
            have he : e = '/' := (List.cons.inj hslash).1.symm
            have hmem : '/' ∈ (['3', ':'] : Text) := by rw [hd, he]; simp
            exact absurd hmem (by decide)
        · cases d with
          | nil => exact hall rfl
          | cons e ds => exact hne ds rfl (by rw [← (List.cons.inj hslash).1]; rfl)
      rw [List.cons_append, hskip, ih (getLast?_of_cons ha), if_congr hsuffix rfl rfl,
        restoreScheme_cons hne, List.cons_append, List.cons_append]
  | nil => rfl

theorem getLast?_restoreScheme (u : Text) : (restoreScheme u).getLast? = u.getLast? := by
  induction u using restoreScheme_induction with
  | word cs ih =>
    rw [restoreScheme_word, List.getLast?_append, ih]
    cases cs with
    | nil => rfl
    | cons d ds => simp [List.getLast?_cons]
  | cons c cs hne ih =>
    rw [restoreScheme_cons hne, List.getLast?_cons, ih, List.getLast?_cons]
  | nil => rfl

theorem head?_restoreScheme (u : Text) : (restoreScheme u).head? = u.head? := by
  cases u using restoreScheme_induction with
  | word cs => rfl
  | cons c cs hne => rw [restoreScheme_cons hne]; rfl
  | nil => rfl

theorem filter_restoreScheme (u : Text) :
    (restoreScheme u).filter (· ≠ '/') = u.filter (· ≠ '/') := by
  induction u using restoreScheme_induction with
  | word cs ih =>
    rw [restoreScheme_word, List.filter_append, ih]
    rfl
  | cons c cs hne ih => rw [restoreScheme_cons hne, List.filter_cons, ih, List.filter_cons]
  | nil => rfl

theorem restoreScheme_of_notMem (h : '/' ∉ u) : restoreScheme u = u := by
  induction u using restoreScheme_induction with
  | word cs ih => exact absurd (by simp) h
  | cons c cs hne ih =>
    rw [restoreScheme_cons hne, ih fun hmem => h (List.mem_cons_of_mem c hmem)]
  | nil => rfl

end Restore

section Clean

variable {a b u : Text} {m n : ℕ}

theorem filter_cleanUri (u : Text) : (cleanUri u).filter (· ≠ '/') = u.filter (· ≠ '/') := by
  rw [cleanUri, filter_restoreScheme, filter_squeezeSlashes]

theorem getLast?_cleanUri (u : Text) : (cleanUri u).getLast? = u.getLast? := by
  rw [cleanUri, getLast?_restoreScheme, getLast?_squeezeSlashes]

theorem head?_cleanUri (u : Text) : (cleanUri u).head? = u.head? := by
  rw [cleanUri, head?_restoreScheme, head?_squeezeSlashes]

theorem cleanUri_of_notMem (h : '/' ∉ u) : cleanUri u = u := by
  rw [cleanUri, squeezeSlashes_of_notMem h, restoreScheme_of_notMem h]

/-- The texts around a run are cleaned by themselves. -/
theorem cleanUri_run (hn : 0 < n) (ha : a.getLast? ≠ some '/') (hb : b.head? ≠ some '/') :
    cleanUri (a ++ List.replicate n '/' ++ b) =
      cleanUri a ++ List.replicate (outRun a n) '/' ++ cleanUri b := by
  obtain ⟨k, hk⟩ : ∃ k, (n + 1) / 2 = k + 1 := ⟨(n + 1) / 2 - 1, by omega⟩
  have hlast : (squeezeSlashes a).getLast? ≠ some '/' := by rwa [getLast?_squeezeSlashes]
  have hword : "s3:".toList <:+ squeezeSlashes a ↔ "s3:".toList <:+ a :=
    isSuffix_squeezeSlashes_iff (by decide)
  rw [cleanUri, List.append_assoc, squeezeSlashes_append ha, squeezeSlashes_run n hb, hk,
    List.replicate_succ, List.cons_append, restoreScheme_append hlast, restoreScheme_slashes,
    outRun, hk, if_congr hword rfl rfl, cleanUri, cleanUri]
  split_ifs
  · rw [List.replicate_succ, List.replicate_succ]
    simp
  · rw [add_zero, List.replicate_succ]
    simp

/-- A text that ends with no slash is known from what it begins, if its other characters are. -/
theorem append_inj_of_filter {x x' y y' : Text} (heq : x ++ y = x' ++ y')
    (hx : x.getLast? ≠ some '/') (hx' : x'.getLast? ≠ some '/')
    (hfilter : x.filter (· ≠ '/') = x'.filter (· ≠ '/')) : x = x' := by
  have hslashes : ∀ {s d : Text}, (s ++ d).getLast? ≠ some '/' →
      s.filter (· ≠ '/') = (s ++ d).filter (· ≠ '/') → d = [] := by
    intro s d hlast hsame
    rw [List.filter_append, List.self_eq_append_right, List.filter_eq_nil_iff] at hsame
    by_contra hne
    rw [List.getLast?_append_of_ne_nil _ hne, List.getLast?_eq_some_getLast hne] at hlast
    have hslash := hsame (d.getLast hne) (List.getLast_mem hne)
    exact hlast (by simpa using hslash)
  rcases List.append_eq_append_iff.mp heq with ⟨d, rfl, -⟩ | ⟨d, rfl, -⟩
  · rw [hslashes hx' hfilter, List.append_nil]
  · rw [hslashes hx hfilter.symm, List.append_nil]

theorem replicate_append_inj {p q : ℕ} {x y : Text} (hx : x.head? ≠ some '/')
    (hy : y.head? ≠ some '/') (h : List.replicate p '/' ++ x = List.replicate q '/' ++ y) :
    p = q ∧ x = y := by
  induction p generalizing q with
  | zero =>
    cases q with
    | zero => exact ⟨rfl, h⟩
    | succ q => exact absurd (congrArg List.head? h) hx
  | succ p ih =>
    cases q with
    | zero => exact absurd (congrArg List.head? h).symm hy
    | succ q =>
      rw [List.replicate_succ, List.replicate_succ, List.cons_append, List.cons_append] at h
      obtain ⟨hpq, hxy⟩ := ih (List.cons.inj h).2
      exact ⟨congrArg Nat.succ hpq, hxy⟩

/-- The cleaning makes another run of a run, and leaves the texts around it alone. -/
theorem cleanUri_run_eq_iff (hm : 0 < m) (ha : a.getLast? ≠ some '/') (hb : b.head? ≠ some '/') :
    cleanUri (a ++ List.replicate m '/' ++ b) = a ++ List.replicate n '/' ++ b ↔
      cleanUri a = a ∧ outRun a m = n ∧ cleanUri b = b := by
  rw [cleanUri_run hm ha hb]
  constructor
  · intro h
    rw [List.append_assoc, List.append_assoc] at h
    have hfront : cleanUri a = a :=
      append_inj_of_filter h (by rwa [getLast?_cleanUri]) ha (filter_cleanUri a)
    rw [hfront] at h
    have hback := replicate_append_inj (by rwa [head?_cleanUri]) hb (List.append_cancel_left h)
    exact ⟨hfront, hback⟩
  · rintro ⟨hfront, hrun, hback⟩
    rw [hfront, hrun, hback]

theorem outRun_eq_self_iff (hn : 0 < n) : outRun a n = n ↔
    if "s3:".toList <:+ a then n = 2 ∨ n = 3 else n = 1 := by
  rw [outRun]
  split_ifs
  · omega
  · omega

/-- The first run of a text. -/
theorem exists_run (h : '/' ∈ u) : ∃ a n b, u = a ++ List.replicate n '/' ++ b ∧ 0 < n ∧
    '/' ∉ a ∧ b.head? ≠ some '/' := by
  have hrun : ∀ t : Text, ∃ n b, t = List.replicate n '/' ++ b ∧ b.head? ≠ some '/' := by
    intro t
    induction t with
    | nil => exact ⟨0, [], rfl, nofun⟩
    | cons c cs ih =>
      by_cases hc : c = '/'
      · obtain ⟨n, b, rfl, hb⟩ := ih
        exact ⟨n + 1, b, by rw [hc, List.replicate_succ, List.cons_append], hb⟩
      · exact ⟨0, c :: cs, rfl, fun heq => hc (Option.some.inj heq)⟩
  obtain ⟨a, rest, rfl, ha⟩ := List.eq_append_cons_of_mem h
  obtain ⟨n, b, rfl, hb⟩ := hrun rest
  exact ⟨a, n + 1, b, by rw [List.replicate_succ, List.append_assoc, List.cons_append],
    Nat.succ_pos n, ha, hb⟩

/-- What a text ends with, up to a word, stands behind its last slash. -/
theorem isSuffix_append_run_iff {w : Text} (hw : '/' ∉ w) (hn : 0 < n) :
    w <:+ a ++ List.replicate n '/' ++ b ↔ w <:+ b := by
  obtain ⟨k, rfl⟩ := Nat.exists_eq_succ_of_ne_zero hn.ne'
  rw [List.replicate_succ', ← List.append_assoc, List.append_assoc, List.singleton_append]
  constructor
  · intro h
    rcases List.suffix_or_suffix_of_suffix h (List.suffix_append _ _) with hshort | hlong
    · exact (List.suffix_cons_iff.mp hshort).resolve_left fun heq =>
        hw (heq ▸ List.mem_cons_self)
    · exact absurd (hlong.subset List.mem_cons_self) hw
  · intro h
    exact (h.trans (List.suffix_cons _ _)).trans (List.suffix_append _ _)

/-- The runs behind a run are runs of the whole text. -/
theorem SettledRuns.of_append_run (h : SettledRuns (a ++ List.replicate n '/' ++ b)) (hn : 0 < n)
    (hb : b.head? ≠ some '/') : SettledRuns b := by
  rintro a' n' b' rfl hn' ha' hb'
  have hne : a' ≠ [] := by
    rintro rfl
    obtain ⟨k, rfl⟩ := Nat.exists_eq_succ_of_ne_zero hn'.ne'
    exact hb (by rw [List.replicate_succ]; rfl)
  have hwhole := h (a ++ List.replicate n '/' ++ a') n' b' (by simp only [List.append_assoc]) hn'
    (by rwa [List.getLast?_append_of_ne_nil _ hne]) hb'
  rwa [if_congr (isSuffix_append_run_iff (by decide) hn) rfl rfl] at hwhole

/-- The texts that the cleaning leaves alone. -/
theorem cleanUri_eq_self_iff (u : Text) : cleanUri u = u ↔ SettledRuns u := by
  constructor
  · rintro h a n b rfl hn ha hb
    exact (outRun_eq_self_iff hn).mp ((cleanUri_run_eq_iff hn ha hb).mp h).2.1
  · intro h
    induction hlen : u.length using Nat.strong_induction_on generalizing u with
    | _ k ih =>
      by_cases hslash : '/' ∈ u
      · obtain ⟨a, n, b, rfl, hn, ha, hb⟩ := exists_run hslash
        have hlast : a.getLast? ≠ some '/' := fun hlast => ha (List.mem_of_getLast? hlast)
        have hshort : b.length < k := by
          simp only [List.length_append, List.length_replicate] at hlen
          omega
        exact (cleanUri_run_eq_iff hn hlast hb).mpr ⟨cleanUri_of_notMem ha,
          (outRun_eq_self_iff hn).mpr (h a n b rfl hn hlast hb),
          ih b.length hshort b (h.of_append_run hn hb) rfl⟩
      · exact cleanUri_of_notMem hslash

end Clean

end RobotDataHarness.Devscale

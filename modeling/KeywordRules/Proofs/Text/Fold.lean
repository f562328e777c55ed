import KeywordRules.Text.Fold

/-!
# What folding leaves alone

Punctuation, digits and blanks in ASCII are not letters, and no letter is folded to one of them: a text holds each of
them as often before as after folding (`count_fold`).  The lowercase of a character holds no letter that has another
lowercase, so folding a second time changes nothing (`fold_fold`).  Above ASCII, too, blanks are no letters
(`lowercase_of_isBlank`).
-/

namespace KeywordRules

/-- The lowercase of a letter above ASCII is a letter. -/
theorem le_image_of_mem_caseRuns : ∀ r ∈ caseRuns, 0x6B ≤ r.image := by
  decide +kernel

theorem le_of_lower? {n m : Nat} (h : caseRuns.findSome? (·.lower? n) = some m) : 0x6B ≤ m := by
  obtain ⟨r, hr, hm⟩ := List.exists_of_findSome?_eq_some h
  have himage := le_image_of_mem_caseRuns r hr
  unfold CaseRun.lower? at hm
  split at hm
  · cases hm
    omega
  · cases hm

theorem toNat_ofNat_eq (n : Nat) : (Char.ofNat n).toNat = n ∨ (Char.ofNat n).toNat = 0 := by
  by_cases h : n.isValidChar
  · left
    rw [Char.ofNat, dif_pos h]
    rfl
  · right
    rw [Char.ofNat, dif_neg h]
    rfl

private theorem toNat_toLower_of_upper : ∀ n < 91, 65 ≤ n → (Char.ofNat n).toLower.toNat = n + 32 := by decide

theorem toLower_eq_iff {c d : Char} (h : c.toNat < 65) : d.toLower = c ↔ d = c := by
  by_cases hd : 65 ≤ d.toNat ∧ d.toNat ≤ 90
  · have hlower := toNat_toLower_of_upper d.toNat (by omega) hd.1
    rw [Char.ofNat_toNat] at hlower
    constructor
    · intro he
      rw [he] at hlower
      omega
    · intro he
      rw [he] at hd
      omega
  · have hlower : d.toLower = d := dif_neg hd
    rw [hlower]

/-- The characters of ASCII below the letters are the lowercase of nothing but themselves. -/
theorem count_lowercase {c : Char} (h0 : 0 < c.toNat) (h : c.toNat < 65) (d : Char) :
    (lowercase d).count c = [d].count c := by
  have hsingle {a : Char} (ha : a ≠ c) : [a].count c = 0 := by
    rw [List.count_eq_zero, List.mem_singleton]
    exact fun he => ha he.symm
  unfold lowercase
  split
  · by_cases hd : d = c
    · rw [(toLower_eq_iff h).2 hd, hd]
    · rw [hsingle hd, hsingle (fun he => hd ((toLower_eq_iff h).1 he))]
  · next hd =>
    have hne : d ≠ c := by
      rintro rfl
      omega
    rw [hsingle hne]
    split
    · rw [List.count_eq_zero]
      intro hmem
      rcases List.mem_cons.1 hmem with rfl | hmem
      · exact absurd h (by decide)
      · rw [List.mem_singleton.1 hmem] at h
        exact absurd h (by decide)
    · split
      · next n hn =>
        have hle := le_of_lower? hn
        refine hsingle fun he => ?_
        rcases toNat_ofNat_eq n with hnat | hnat <;> rw [he] at hnat <;> omega
      · exact hsingle hne

/-- Folding leaves a text as many of each character below the letters of ASCII as it had. -/
theorem count_fold {c : Char} (h0 : 0 < c.toNat) (h : c.toNat < 65) (t : Text) : (fold t).count c = t.count c := by
  induction t with
  | nil => rfl
  | cons d t ih =>
    rw [fold_cons, List.count_append, count_lowercase h0 h, ih, ← List.count_append, List.singleton_append]

theorem mem_fold_iff {c : Char} (h0 : 0 < c.toNat) (h : c.toNat < 65) {t : Text} : c ∈ fold t ↔ c ∈ t := by
  rw [← List.count_pos_iff, count_fold h0 h, List.count_pos_iff]

/-! ### Folding twice -/

/-- The images of `r` lie apart from the letters of `s`, or take turns with them. -/
def CaseRun.avoids (r s : CaseRun) : Bool :=
  (r.image + (r.last - r.first)).blt s.first || s.last.blt r.image ||
    ((r.step == 2 || r.first == r.last) && (s.step == 2 || s.first == s.last) && (r.image + s.first) % 2 == 1)

/-- The only letter of this run is `İ`, which the table leaves out. -/
def dottedRun : CaseRun := ⟨0x130, 0x130, 1, 0x69⟩

theorem avoids_of_mem_caseRuns :
    (caseRuns.all fun r => (dottedRun :: caseRuns).all fun s => r.avoids s) = true := by
  decide +kernel

/-- An image of `r` is no letter of a run that `r` avoids. -/
theorem CaseRun.lower?_of_avoids {r s : CaseRun} (h : r.avoids s = true) {n m : Nat} (hm : r.lower? n = some m) :
    s.lower? m = none := by
  unfold CaseRun.lower? at hm
  split at hm
  · next hn =>
    obtain ⟨hfirst, hlast, hstep⟩ := hn
    cases hm
    unfold CaseRun.lower?
    rw [if_neg]
    rintro ⟨hle, hge, hmod⟩
    simp only [avoids, Bool.or_eq_true, Bool.and_eq_true, Nat.blt_eq, beq_iff_eq] at h
    rcases h with (h | h) | ⟨⟨hr, hs⟩, hodd⟩
    · omega
    · omega
    · -- both sets of code points keep their parity, and the parities differ
      have himage : (n - r.first) % 2 = 0 := by
        rcases hr with hr | hr
        · rw [← hr]
          exact hstep
        · omega
      have hletter : (r.image + (n - r.first) - s.first) % 2 = 0 := by
        rcases hs with hs | hs
        · rw [← hs]
          exact hmod
        · omega
      omega
  · cases hm

/-- The lowercase of a letter above ASCII is no letter with another lowercase. -/
theorem lower?_eq_none_of_image {n m : Nat} (h : caseRuns.findSome? (·.lower? n) = some m) :
    dottedRun.lower? m = none ∧ caseRuns.findSome? (·.lower? m) = none := by
  obtain ⟨r, hr, hm⟩ := List.exists_of_findSome?_eq_some h
  have havoids : ∀ s ∈ dottedRun :: caseRuns, s.lower? m = none := by
    intro s hs
    have hall := List.all_eq_true.1 avoids_of_mem_caseRuns r hr
    exact CaseRun.lower?_of_avoids (List.all_eq_true.1 hall s hs) hm
  refine ⟨havoids _ List.mem_cons_self, ?_⟩
  rw [List.findSome?_eq_none_iff]
  exact fun s hs => havoids s (List.mem_cons_of_mem _ hs)

private theorem toLower_toLower_of_ascii :
    ∀ n < 128, (Char.ofNat n).toLower.toNat < 128 ∧ (Char.ofNat n).toLower.toLower = (Char.ofNat n).toLower := by
  decide

theorem lowercase_of_ascii {c : Char} (h : c.toNat < 128) : lowercase c = [c.toLower] := if_pos h

theorem lowercase_of_no_letter {c : Char} (h : ¬ c.toNat < 128) (hd : c ≠ '\u0130')
    (hn : caseRuns.findSome? (·.lower? c.toNat) = none) : lowercase c = [c] := by
  simp only [lowercase, if_neg h, if_neg hd, hn]

private theorem lowercase_of_image {n m : Nat} (h : caseRuns.findSome? (·.lower? n) = some m) :
    lowercase (Char.ofNat m) = [Char.ofNat m] := by
  have hletter := le_of_lower? h
  obtain ⟨hdotted, hnone⟩ := lower?_eq_none_of_image h
  by_cases hascii : (Char.ofNat m).toNat < 128
  · -- an image in ASCII comes after the capitals
    have hlower : (Char.ofNat m).toLower = Char.ofNat m := by
      refine dif_neg fun hu => ?_
      have hge : 65 ≤ (Char.ofNat m).toNat := hu.1
      have hle : (Char.ofNat m).toNat ≤ 90 := hu.2
      rcases toNat_ofNat_eq m with hnat | hnat <;> omega
    rw [lowercase_of_ascii hascii, hlower]
  · have hnat : (Char.ofNat m).toNat = m := by
      rcases toNat_ofNat_eq m with hnat | hnat
      · exact hnat
      · omega
    refine lowercase_of_no_letter hascii (fun he => ?_) (by rw [hnat]; exact hnone)
    rw [he] at hnat
    rw [← hnat] at hdotted
    exact absurd hdotted (by decide)

/-- What a character is folded to is folded to itself. -/
theorem lowercase_of_mem_lowercase {c d : Char} (h : d ∈ lowercase c) : lowercase d = [d] := by
  by_cases hascii : c.toNat < 128
  · have hlower := toLower_toLower_of_ascii c.toNat hascii
    rw [Char.ofNat_toNat] at hlower
    rw [lowercase_of_ascii hascii, List.mem_singleton] at h
    rw [h, lowercase_of_ascii hlower.1, hlower.2]
  · by_cases hdotted : c = '\u0130'
    · subst hdotted
      have hmem : d ∈ ['i', '\u0307'] := h
      rcases List.mem_cons.1 hmem with rfl | hmem
      · decide
      · rw [List.mem_singleton.1 hmem]
        decide +kernel
    · rcases hrun : caseRuns.findSome? (·.lower? c.toNat) with _ | m
      · have hself := lowercase_of_no_letter hascii hdotted hrun
        rw [hself, List.mem_singleton] at h
        rw [h, hself]
      · have himage : lowercase c = [Char.ofNat m] := by
          simp only [lowercase, if_neg hascii, if_neg hdotted, hrun]
        rw [himage, List.mem_singleton] at h
        rw [h, lowercase_of_image hrun]

theorem lowercase_of_mem_fold {t : Text} {c : Char} (h : c ∈ fold t) : lowercase c = [c] := by
  obtain ⟨d, -, hd⟩ := List.mem_flatMap.1 h
  exact lowercase_of_mem_lowercase hd

theorem fold_eq_self {t : Text} (h : ∀ c ∈ t, lowercase c = [c]) : fold t = t := by
  induction t with
  | nil => rfl
  | cons c t ih =>
    rw [fold_cons, h c List.mem_cons_self, ih fun d hd => h d (List.mem_cons_of_mem _ hd), List.singleton_append]

theorem fold_fold (t : Text) : fold (fold t) = fold t := fold_eq_self fun _ hc => lowercase_of_mem_fold hc

/-! ### Blanks -/

private theorem toLower_of_ascii_blank :
    ∀ n < 128, isBlank (Char.ofNat n) = true → (Char.ofNat n).toLower = Char.ofNat n := by
  decide

private theorem blankRanges_apart_caseRuns :
    (blankRanges.all fun b => caseRuns.all fun r => b.2.blt r.first || r.last.blt b.1) = true := by
  decide +kernel

theorem lowercase_of_isBlank {c : Char} (h : isBlank c = true) : lowercase c = [c] := by
  by_cases hascii : c.toNat < 128
  · have hlower := toLower_of_ascii_blank c.toNat hascii
    rw [Char.ofNat_toNat] at hlower
    rw [lowercase_of_ascii hascii, hlower h]
  · have hdotted : c ≠ '\u0130' := by
      rintro rfl
      exact absurd h (by decide)
    refine lowercase_of_no_letter hascii hdotted (List.findSome?_eq_none_iff.2 fun r hr => ?_)
    obtain ⟨b, hb, hb₁, hb₂⟩ := inRanges_iff.1 h
    have hapart := List.all_eq_true.1 (List.all_eq_true.1 blankRanges_apart_caseRuns b hb) r hr
    simp only [Bool.or_eq_true, Nat.blt_eq] at hapart
    rw [CaseRun.lower?, if_neg]
    rintro ⟨hfirst, hlast, -⟩
    omega

end KeywordRules

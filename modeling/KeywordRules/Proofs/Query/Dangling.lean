import KeywordRules.Proofs.Query.Leaves
import KeywordRules.Proofs.Query.Outline

/-!
# Dangling connectives and parentheses

Only operands add to what a query means.  After any tokens a connective or a parenthesis leaves the value of an outline
as it is (`Outline.value_step`), whatever groups are open and whatever waits, and so do the `AND`s that are spliced
before it.  At the start of a query `AND`, `OR` and closing parentheses leave the outline itself as it is
(`Outline.step_start`).  So a query means what it means without such tokens at its ends (`parse_dangling`).
-/

namespace KeywordRules

namespace Place

theorem value_fill_none (s : Place) : (s.fill none).value = s.value := by
  simp [value, fill, negate_none]

theorem value_disjunct (s : Place) : Place.value ⟨s.value, none, 0⟩ = s.value := joinOperands_none_right _ _

end Place

namespace Outline

/-! ### At the end -/

theorem value_conclude (σ : Outline) : σ.conclude.value = σ.value := by
  rw [value, conclude]
  simp [leave]

theorem value_resume (σ : Outline) : σ.resume.value = σ.value := by
  unfold resume
  split
  · exact σ.value_conclude
  · rfl

theorem value_enter (σ : Outline) : σ.enter.value = σ.value := by
  unfold enter
  split
  · -- the group that is entered means nothing yet
    rw [value, leave, Place.value_vacant, Place.value_fill_none, value]
  · rfl

theorem value_close (σ : Outline) : σ.close.value = σ.value := by
  obtain ⟨r, gs, s, m, d⟩ := σ
  rcases d with _ | d
  · rcases gs with _ | ⟨g, gs⟩
    · rfl
    · rfl
  · rfl

/-- A token that is no operand leaves the value as it is. -/
theorem value_step (σ : Outline) {t : Token} (h : t.isOperand = false) : (σ.step t).value = σ.value := by
  rcases t with c | _ | _ | ⟨w, m⟩ | v
  · rcases c with _ | _ | _
    · rfl
    · rw [step, value, Place.value_disjunct, value]
    · rw [step]
      split
      · rfl
      · exact σ.value_conclude
  · rw [step, value_enter, value_resume]
  · exact σ.value_close
  · cases h
  · cases h

theorem value_foldl_feed {x : Outline × Bool} {ts : List Token} (h : ∀ t ∈ ts, t.isOperand = false) :
    (ts.foldl feed x).1.value = x.1.value := by
  induction ts generalizing x with
  | nil => rfl
  | cons t ts ih =>
    rw [List.foldl_cons, ih fun u hu => h u (List.mem_cons_of_mem _ hu), feed, value_step _ (h t List.mem_cons_self)]
    split
    · exact x.1.value_step rfl
    · rfl

/-! ### At the start -/

/-- Where nothing has been read, neither a binary connective nor a closing parenthesis does anything. -/
theorem step_start {t : Token} (h : t.isBinary = true ∨ t = .closing) : start.step t = start := by
  rcases h with h | rfl
  · cases t with
    | connective c =>
      cases c with
      | not => cases h
      | _ => rfl
    | _ => cases h
  · rfl

/-- It makes no difference at the start whether an operand seems to have ended. -/
theorem foldl_feed_start (b : Bool) (ts : List Token) :
    (ts.foldl feed (start, b)).1 = (ts.foldl feed (start, false)).1 := by
  rcases ts with _ | ⟨t, ts⟩
  · rfl
  · have hfirst : feed (start, b) t = feed (start, false) t := by
      unfold feed
      rw [step_start (t := .connective .and) (.inl rfl), ite_self, ite_self]
    rw [List.foldl_cons, List.foldl_cons, hfirst]

theorem foldl_feed_append {h ts : List Token} (hh : ∀ t ∈ h, t.isBinary = true ∨ t = .closing) :
    ((h ++ ts).foldl feed (start, false)).1 = (ts.foldl feed (start, false)).1 := by
  have hstays (b : Bool) : ∃ c, h.foldl feed (start, b) = (start, c) := by
    induction h generalizing b with
    | nil => exact ⟨b, rfl⟩
    | cons t h ih =>
      have hfirst : feed (start, b) t = (start, t.endsValue) := by
        unfold feed
        rw [step_start (t := .connective .and) (.inl rfl), ite_self, step_start (hh t List.mem_cons_self)]
      rw [List.foldl_cons, hfirst]
      exact ih (fun u hu => hh u (List.mem_cons_of_mem _ hu)) _
  obtain ⟨c, hc⟩ := hstays false
  rw [List.foldl_append, hc, foldl_feed_start]

end Outline

/-! ### Queries -/

/-- Dangling tokens at the ends of a query do not change what it means. -/
theorem root_dangling {h t : List Token} (hh : ∀ a ∈ h, a.isBinary = true ∨ a = .closing)
    (ht : ∀ a ∈ t, a.isOperand = false) (ts : List Token) :
    (parse (spliceAnds (h ++ ts ++ t))).root? = (parse (spliceAnds ts)).root? := by
  have htail : (parse (spliceAnds (h ++ ts ++ t))).root? = (parse (spliceAnds (h ++ ts))).root? := by
    rw [root_spliceAnds, List.foldl_append, Outline.value_foldl_feed ht, root_spliceAnds]
  rw [htail, root_spliceAnds, Outline.foldl_feed_append hh, root_spliceAnds]

theorem Outline.step_of_leaf (σ : Outline) {a : Token} {l : Leaf} (ha : a.leaf? = some l) :
    σ.step a = σ.resume.fill (some (.leaf l)) := by
  cases a with
  | term w m =>
    rw [Token.leaf?_term, Option.some.injEq] at ha
    rw [step, ha]
  | phrase v =>
    rw [Token.leaf?, Option.some.injEq] at ha
    rw [step, ha]
  | _ => cases ha

/-- Connectives and parentheses at the end of a query, and `AND`, `OR` and closing parentheses at its start, contribute
nothing, whatever stands between.  So closing parentheses may be missing or too many at the end, and one operand with a
connective on one side, or in a group that is not closed, is read as the operand. -/
theorem parse_dangling (ts : List Token) :
    (∀ h t : List Token, (∀ a ∈ h, a.isBinary = true ∨ a = .closing) → (∀ a ∈ t, a.isOperand = false) →
      (parse (spliceAnds (h ++ ts ++ t))).root? = (parse (spliceAnds ts)).root?) ∧
    (∀ n, (parse (spliceAnds (ts ++ List.replicate n .closing))).root? = (parse (spliceAnds ts)).root?) ∧
    ∀ a l, Token.leaf? a = some l →
      (parse (spliceAnds [a, .connective .and])).root? = some (.leaf l) ∧
      (parse (spliceAnds [.connective .or, a])).root? = some (.leaf l) ∧
      (parse (spliceAnds [.opening, a, .connective .and])).root? = some (.leaf l) := by
  refine ⟨fun h t hh ht => root_dangling hh ht ts, fun n => ?_, fun a l ha => ?_⟩
  · refine root_dangling (h := []) (by simp) (fun a ha => ?_) ts
    rw [List.eq_of_mem_replicate ha]
    rfl
  · have halone : (parse (spliceAnds [a])).root? = some (.leaf l) := by
      rw [root_parse, spliceAnds_singleton, List.foldl_cons, Outline.step_of_leaf _ ha]
      rfl
    have hopened : (parse (spliceAnds [.opening, a])).root? = some (.leaf l) := by
      have hsplice : spliceAnds [.opening, a] = [.opening, a] := rfl
      rw [root_parse, hsplice, List.foldl_cons, List.foldl_cons, Outline.step_of_leaf _ ha]
      rfl
    have hand : ∀ x ∈ [Token.connective .and], x.isOperand = false := by decide
    have hor : ∀ x ∈ [Token.connective .or], x.isBinary = true ∨ x = .closing := by decide
    have hnil : ∀ x ∈ ([] : List Token), x.isBinary = true ∨ x = .closing := by simp
    refine ⟨?_, ?_, ?_⟩
    · rw [← halone]
      exact root_dangling hnil hand [a]
    · rw [← halone]
      exact root_dangling hor (t := []) (by simp) [a]
    · rw [← hopened]
      exact root_dangling hnil hand [.opening, a]

/-- An open group whose last operand is missing. -/
def unfinishedGroup : List Token := [.opening, .term ['a'] false, .connective .or, .connective .not]

theorem parse_dangling_unfinishedGroup :
    ((∀ a ∈ [Token.closing, .connective .or, .closing], a.isBinary = true ∨ a = .closing) ∧
      (∀ a ∈ [Token.opening, .connective .not, .closing, .connective .and, .closing, .closing], a.isOperand = false) ∧
      Token.leaf? (.term ['a'] false) = some (.word ['a'])) ∧
    (parse (spliceAnds ([Token.closing, .connective .or, .closing] ++ unfinishedGroup ++
      [Token.opening, .connective .not, .closing, .connective .and, .closing, .closing]))).root? =
      (parse (spliceAnds unfinishedGroup)).root? ∧
    (parse (spliceAnds (unfinishedGroup ++ List.replicate 3 .closing))).root? =
      (parse (spliceAnds unfinishedGroup)).root? ∧
    (parse (spliceAnds [.opening, .term ['a'] false, .connective .and])).root? = some (.leaf (.word ['a'])) := by
  have hhead : ∀ a ∈ [Token.closing, .connective .or, .closing], a.isBinary = true ∨ a = .closing := by decide
  have htail : ∀ a ∈ [Token.opening, .connective .not, .closing, .connective .and, .closing, .closing],
      a.isOperand = false := by decide
  have hleaf : Token.leaf? (.term ['a'] false) = some (.word ['a']) := by decide +kernel
  obtain ⟨hends, hclosed, hone⟩ := parse_dangling unfinishedGroup
  exact ⟨⟨hhead, htail, hleaf⟩, hends _ _ hhead htail, hclosed 3, (hone _ _ hleaf).2.2⟩

end KeywordRules

import KeywordRules.Text.CharClass

/-!
# Markup spans

A markup span runs from a `<` to the first `>` after it, whatever stands between the two.  Reading from the left,
every span is replaced by one blank, so markup separates words and hides nothing outside itself.  A `<` that no `>`
follows is ordinary text.
-/

namespace KeywordRules

/-- What follows the first `>` of `t`, if there is one. -/
def afterSpan? (t : Text) : Option Text :=
  match t.dropWhile (· ≠ '>') with
  | [] => none
  | _ :: r => some r

theorem length_lt_of_afterSpan? {t r : Text} (h : afterSpan? t = some r) : r.length < t.length := by
  unfold afterSpan? at h
  split at h
  · cases h
  · rename_i c r' heq
    cases h
    have := (List.dropWhile_suffix (l := t) (· ≠ '>')).length_le
    rw [heq, List.length_cons] at this
    omega

/-- Replaces every markup span by a blank. -/
def stripMarkup : Text → Text
  | [] => []
  | c :: t =>
    if c = '<' then
      match _h : afterSpan? t with
      | some r => ' ' :: stripMarkup r
      | none => c :: t
    else c :: stripMarkup t
termination_by t => t.length
decreasing_by
  · have := length_lt_of_afterSpan? _h
    simp only [List.length_cons]; omega
  · simp

end KeywordRules

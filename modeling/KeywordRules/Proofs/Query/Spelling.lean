import KeywordRules.Proofs.Document
import KeywordRules.Proofs.Query.Alternation
import KeywordRules.Proofs.Query.Lexing
import KeywordRules.Query.Compile

/-!
# Spellings of a query

Much of how a query is spelled makes no difference.  Where a blank, a parenthesis or a quote keeps its parts apart, its
tokens are those of the parts, and only an `AND` or `OR` right behind the seam may be redundant; so blanks can be put there
or taken away (`tokenise_composes`).  An `AND` between two operands can be written or left out: it stands at the same place
among the tokens (`compile_juxtaposition`).  Neither queries nor documents depend on case, and documents not on markup and
separators (`isMatch_ignores_spelling`).
-/

namespace KeywordRules

/-! ### Tokens at a seam -/

/-- The tokens `us` behind the tokens `ts`.  An `AND` or `OR` at their head is left out after a connective. -/
def appendTokens (ts us : List Token) : List Token :=
  ts ++ if ts.getLast?.any Token.isConnective && us.head?.any Token.isBinary then us.tail else us

/-- Behind a connective a list loses the `AND` or `OR` it begins with, and nothing else: what it loses is a connective too,
so the tokens after it are kept or left out as before. -/
theorem dropRedundant_true (ts : List Token) :
    dropRedundant true ts =
      if (dropRedundant false ts).head?.any Token.isBinary then (dropRedundant false ts).tail
      else dropRedundant false ts := by
  rcases ts with _ | ⟨t, ts⟩
  · rfl
  · have hfalse : dropRedundant false (t :: ts) = t :: dropRedundant t.isConnective ts := by
      rw [dropRedundant, Bool.false_and, if_neg Bool.false_ne_true]
    rw [hfalse, dropRedundant, Bool.true_and, List.head?_cons, Option.any_some, List.tail_cons]
    by_cases ht : t.isBinary = true
    · rw [if_pos ht, if_pos ht, Token.isConnective_of_isBinary ht]
    · rw [if_neg ht, if_neg ht]

section

variable {q₁ q₂ : Text} (hq : Even (q₁.count '"')) (h : IsSeam q₁ q₂)

include hq h

theorem tokenise_append : tokenise (q₁ ++ q₂) = appendTokens (tokenise q₁) (tokenise q₂) := by
  have hlast : (tokenise q₁).getLast?.elim false Token.isConnective =
      (tokenise q₁).getLast?.any Token.isConnective := by
    rcases (tokenise q₁).getLast? with _ | t <;> rfl
  rw [tokenise, writtenTokens_append hq h, dropRedundant_append, ← tokenise, hlast, appendTokens]
  rcases (tokenise q₁).getLast?.any Token.isConnective with _ | _
  · rfl
  · rw [dropRedundant_true, Bool.true_and]
    rfl

/-- Blanks can be put into a seam. -/
theorem tokenise_append_blanks {s : Text} (hs : ∀ c ∈ s, isBlank c = true) :
    tokenise (q₁ ++ (s ++ q₂)) = tokenise (q₁ ++ q₂) := by
  have hseam : IsSeam q₁ (s ++ q₂) := by
    rcases s with _ | ⟨c, s⟩
    · exact h
    · exact .of_head (isRunChar_eq_false_iff.2 (.inl (hs c List.mem_cons_self)))
  rw [tokenise, writtenTokens_append hq hseam, writtenTokens_blanks hs, ← writtenTokens_append hq h, tokenise]

end

/-- Queries are cut at blanks, parentheses and quotes.  Behind a text with paired quotes that a blank, a parenthesis or a
quote keeps apart from what follows, the tokens are those of what follows, but for an `AND` or `OR` right after a
connective; and between the two any blanks can be added or removed. -/
theorem tokenise_composes {q₁ q₂ : Text} (hq : Even (q₁.count '"')) (h : IsSeam q₁ q₂) :
    tokenise (q₁ ++ q₂) = appendTokens (tokenise q₁) (tokenise q₂) ∧
    ∀ s, (∀ c ∈ s, isBlank c = true) → tokenise (q₁ ++ (s ++ q₂)) = tokenise (q₁ ++ q₂) :=
  ⟨tokenise_append hq h, fun _ hs => tokenise_append_blanks hq h hs⟩

/-- A query with a phrase before a connective that lacks an operand. -/
def unfinishedQuery : Text := "a\"b\"or(not ".toList

/-- A query that begins with connectives, and never closes its group and its quote. -/
def headlessQuery : Text := "and or not (\"c".toList

theorem tokenise_composes_headless :
    (Even (unfinishedQuery.count '"') ∧ IsSeam unfinishedQuery headlessQuery ∧ ∀ c ∈ "\t ".toList, isBlank c = true) ∧
    tokenise (unfinishedQuery ++ headlessQuery) =
      [.term ['a'] false, .phrase ['b'], .connective .or, .opening, .connective .not, .connective .not, .opening,
        .phrase ['c']] ∧
    tokenise (unfinishedQuery ++ ("\t ".toList ++ headlessQuery)) = tokenise (unfinishedQuery ++ headlessQuery) := by
  have hq : Even (unfinishedQuery.count '"') := by decide
  have hseam : IsSeam unfinishedQuery headlessQuery := .inr (.inr (.inl ⟨' ', by decide⟩))
  have hblanks : ∀ c ∈ "\t ".toList, isBlank c = true := List.all_eq_true.mp (by decide)
  have hfirst : tokenise unfinishedQuery =
      [.term ['a'] false, .phrase ['b'], .connective .or, .opening, .connective .not] := by
    decide +kernel
  have hsecond : tokenise headlessQuery = [.connective .and, .connective .not, .opening, .phrase ['c']] := by
    decide +kernel
  obtain ⟨htokens, hspaced⟩ := tokenise_composes hq hseam
  rw [hfirst, hsecond] at htokens
  exact ⟨⟨hq, hseam, hblanks⟩, htokens, hspaced _ hblanks⟩

/-! ### Conjunctions -/

theorem tokenise_blank (q : Text) : tokenise (' ' :: q) = tokenise q := by
  rw [tokenise, writtenTokens_blank, tokenise]

/-- Behind an operand nothing is redundant. -/
theorem appendTokens_of_endsValue {ts : List Token} (h : ts.getLast?.any Token.endsValue = true) (us : List Token) :
    appendTokens ts us = ts ++ us := by
  have hlast : ts.getLast?.any Token.isConnective = false := by
    obtain ⟨t, ht, hends⟩ := (Option.any_eq_true _ _).1 h
    rw [ht, Option.any_some, Bool.eq_false_iff]
    intro hconnective
    rw [Token.endsValue_of_isConnective hconnective] at hends
    cases hends
  rw [appendTokens, hlast, Bool.false_and, if_neg Bool.false_ne_true]

/-- What begins with an operand is not made redundant by an `AND` before it. -/
theorem tokenise_and_append {q : Text} (h : (tokenise q).head?.any Token.startsValue = true) :
    tokenise (Connective.and.text ++ ' ' :: q) = .connective .and :: tokenise q := by
  have hhead : (tokenise q).head?.any Token.isBinary = false := by
    obtain ⟨t, ht, hstarts⟩ := (Option.any_eq_true _ _).1 h
    rw [ht, Option.any_some, Bool.eq_false_iff]
    intro hbinary
    rw [Token.startsValue_of_isBinary hbinary] at hstarts
    cases hstarts
  have hand : tokenise (Connective.and.text ++ ' ' :: q) =
      .connective .and :: dropRedundant true (writtenTokens q) := by
    rw [tokenise, writtenTokens_connective, dropRedundant, Bool.false_and, if_neg Bool.false_ne_true]
    rfl
  rw [hand, dropRedundant_true, ← tokenise, hhead, if_neg Bool.false_ne_true]

section

variable {q₁ q₂ : Text} (hq : Even (q₁.count '"'))
  (h₁ : (tokenise q₁).getLast?.any Token.endsValue = true) (h₂ : (tokenise q₂).head?.any Token.startsValue = true)

include hq h₁ h₂

/-- Operands side by side have a conjunction between them. -/
theorem tokens_beside :
    Query.tokens (q₁ ++ ' ' :: q₂) = Query.tokens q₁ ++ .connective .and :: Query.tokens q₂ := by
  have htokens : tokenise (q₁ ++ ' ' :: q₂) = tokenise q₁ ++ tokenise q₂ := by
    rw [tokenise_append hq (.of_head (by decide)), appendTokens_of_endsValue h₁, tokenise_blank]
  have hand : andBetween (tokenise q₁) (tokenise q₂) = [.connective .and] := by
    rw [andBetween, h₁, h₂]
    rfl
  rw [Query.tokens, htokens, spliceAnds_append, hand, List.singleton_append, Query.tokens, Query.tokens]

/-- A conjunction that is written stands where it would be spliced. -/
theorem tokens_and_beside :
    Query.tokens (q₁ ++ ' ' :: (Connective.and.text ++ ' ' :: q₂)) =
      Query.tokens q₁ ++ .connective .and :: Query.tokens q₂ := by
  have htokens : tokenise (q₁ ++ ' ' :: (Connective.and.text ++ ' ' :: q₂)) =
      tokenise q₁ ++ .connective .and :: tokenise q₂ := by
    rw [tokenise_append hq (.of_head (by decide)), appendTokens_of_endsValue h₁, tokenise_blank, tokenise_and_append h₂]
  -- an `AND` begins no operand and ends none, so nothing is spliced on either side of it
  have hbefore : andBetween (tokenise q₁) (.connective .and :: tokenise q₂) = [] := by
    rw [andBetween, h₁]
    rfl
  have hafter : andBetween [.connective .and] (tokenise q₂) = [] := rfl
  rw [Query.tokens, htokens, spliceAnds_append, hbefore, spliceAnds_cons, hafter, List.nil_append, List.nil_append,
    Query.tokens, Query.tokens]

/-- Juxtaposition is conjunction.  Behind a query with paired quotes that ends with an operand, and before one that begins
with an operand, `AND` can be written or left out: what is compiled has the same root and the same warnings, which point at
the same tokens. -/
theorem compile_juxtaposition :
    (Query.compile (q₁ ++ ' ' :: q₂)).root? =
      (Query.compile (q₁ ++ ' ' :: (Connective.and.text ++ ' ' :: q₂))).root? ∧
    (Query.compile (q₁ ++ ' ' :: q₂)).warnings =
      (Query.compile (q₁ ++ ' ' :: (Connective.and.text ++ ' ' :: q₂))).warnings := by
  have htokens : Query.tokens (q₁ ++ ' ' :: q₂) =
      Query.tokens (q₁ ++ ' ' :: (Connective.and.text ++ ' ' :: q₂)) := by
    rw [tokens_beside hq h₁ h₂, tokens_and_beside hq h₁ h₂]
  rw [Query.compile, Query.compile, htokens]
  exact ⟨rfl, rfl⟩

end

/-- A query that ends with a closing parenthesis nothing opens. -/
def overclosedQuery : Text := "or \"a\" (b) not)".toList

theorem compile_juxtaposition_overclosed :
    (Even (overclosedQuery.count '"') ∧ (tokenise overclosedQuery).getLast?.any Token.endsValue = true ∧
      (tokenise "not (c or".toList).head?.any Token.startsValue = true) ∧
    (Query.compile (overclosedQuery ++ ' ' :: "not (c or".toList)).root? =
      (Query.compile (overclosedQuery ++ ' ' :: (Connective.and.text ++ ' ' :: "not (c or".toList))).root? ∧
    (Query.compile (overclosedQuery ++ ' ' :: "not (c or".toList)).warnings =
      (Query.compile (overclosedQuery ++ ' ' :: (Connective.and.text ++ ' ' :: "not (c or".toList))).warnings := by
  have hq : Even (overclosedQuery.count '"') := by decide
  have h₁ : (tokenise overclosedQuery).getLast?.any Token.endsValue = true := by decide +kernel
  have h₂ : (tokenise "not (c or".toList).head?.any Token.startsValue = true := by decide +kernel
  exact ⟨⟨hq, h₁, h₂⟩, compile_juxtaposition hq h₁ h₂⟩

/-! ### Case, markup and separators -/

theorem tokens_fold (q : Text) : Query.tokens (fold q) = Query.tokens q := by
  rw [Query.tokens, tokenise, writtenTokens_fold, ← tokenise, Query.tokens]

/-- Matching does not see how things are spelled: a document is matched like its folded form and like its normal form, and a
query matches like its folded form, from which the same root and the same warnings are compiled. -/
theorem isMatch_ignores_spelling (d q : Text) :
    (isMatch d q = isMatch (fold d) q ∧ isMatch d q = isMatch (normalise d) q ∧ isMatch d q = isMatch d (fold q)) ∧
    (Query.compile q).root? = (Query.compile (fold q)).root? ∧
    (Query.compile q).warnings = (Query.compile (fold q)).warnings := by
  have hroot : (Query.compile q).root? = (Query.compile (fold q)).root? := by
    rw [Query.compile, Query.compile, tokens_fold]
  refine ⟨⟨?_, ?_, ?_⟩, hroot, ?_⟩
  · rw [isMatch, Query.isMatch, isMatch, Query.isMatch, Document.ofText_fold]
  · rw [isMatch, Query.isMatch, isMatch, Query.isMatch, Document.ofText_normalise]
  · rw [isMatch, Query.isMatch, Query.holds, hroot]
    rfl
  · rw [Query.compile, Query.compile, tokens_fold]

-- a capital that folds to two characters, markup, and a quote that stays open
example : isMatch "<i>\u0130x</i>, B!".toList "\"\u0130X  b".toList = true := by
  decide +kernel

end KeywordRules

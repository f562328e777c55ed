import KeywordRules.Text.Words

/-!
# Documents

A document is known by its normal form and the words in it.  It is prepared once and then tested by any number of
queries.
-/

namespace KeywordRules

/-- Whether `p` stands somewhere in a text. -/
def occursIn (p : Text) : Text → Bool
  | [] => p.isEmpty
  | c :: t => p.isPrefixOf (c :: t) || occursIn p t

/-- A document in normal form, with its words in order and the set of them. -/
structure Document where
  text : Text
  words : List Text
  /-- Every word once. -/
  vocabulary : List Text
deriving DecidableEq, Repr

namespace Document

/-- Prepares a text for matching. -/
def ofText (t : Text) : Document :=
  let text := normalise t
  let words := parts (· = ' ') text
  ⟨text, words, words.eraseDups⟩

def isEmpty (d : Document) : Bool := d.words.isEmpty

/-- Whether `w` is one of the words. -/
def hasWord (d : Document) (w : Text) : Bool := d.vocabulary.contains w

/-- Whether some word starts with `p`; the empty text starts none. -/
def hasStem (d : Document) (p : Text) : Bool := !p.isEmpty && d.words.any (p.isPrefixOf ·)

/-- Whether the normal form holds `p`, possibly inside words; the empty text is nowhere. -/
def hasPhrase (d : Document) (p : Text) : Bool := !p.isEmpty && occursIn p d.text

end Document

end KeywordRules

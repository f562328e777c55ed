import KeywordRules.Text.Decimal

/-!
# Rule sets

A rule set lists brands in order of priority.  A brand has a name, a query that recognises it, and sub-brands, also in
order of priority, that are tried only once the brand has matched.

Within each scope, the brands and the sub-brands of each brand, names trimmed of blanks are neither empty nor repeated.
The first entry that breaks the rule is reported, brands before sub-brands and scopes in the order of the brands.
Different scopes may share names.
-/

namespace KeywordRules

structure SubBrand where
  name : Text
  rule : Text
deriving DecidableEq, Repr

structure Brand where
  name : Text
  rule : Text
  subbrands : List SubBrand
deriving DecidableEq, Repr

structure RuleSet where
  brands : List Brand
deriving DecidableEq, Repr

/-! ### Names -/

/-- What is wrong with an entry's name. -/
inductive NameFault where
  /-- The name of the entry at the index holds nothing but blanks. -/
  | blank (index : Nat)
  /-- The trimmed name was used by an earlier entry. -/
  | duplicate (name : Text)
deriving DecidableEq, Repr

/-- Where names have to differ. -/
inductive NameScope where
  | brands
  | subbrands (brand : Text)
deriving DecidableEq, Repr

/-- The first offender in a rule set. -/
structure NameError where
  scope : NameScope
  fault : NameFault
deriving DecidableEq, Repr

namespace NameError

def message : NameError → Text
  | ⟨.brands, .blank i⟩ => "brand at index ".toList ++ decimal i ++ " has a blank name".toList
  | ⟨.subbrands b, .blank i⟩ =>
    "sub-brand of `".toList ++ b ++ "` at index ".toList ++ decimal i ++ " has a blank name".toList
  | ⟨.brands, .duplicate n⟩ => "duplicate name `".toList ++ n ++ "` in brands".toList
  | ⟨.subbrands b, .duplicate n⟩ =>
    "duplicate name `".toList ++ n ++ "` in sub-brands of `".toList ++ b ++ "`".toList

end NameError

/-- The first fault among `names`, which are numbered from `index` and come after the trimmed names `seen`. -/
def firstFault (seen : List Text) (index : Nat) : List Text → Option NameFault
  | [] => none
  | name :: names =>
    let trimmed := trim name
    if trimmed.isEmpty then some (.blank index)
    else if seen.contains trimmed then some (.duplicate trimmed)
    else firstFault (trimmed :: seen) (index + 1) names

/-- The first fault of a scope, with the scope. -/
def scopeError? (scope : NameScope) (names : List Text) : Option NameError :=
  (firstFault [] 0 names).map fun fault => ⟨scope, fault⟩

def Brand.nameError? (b : Brand) : Option NameError :=
  scopeError? (.subbrands b.name) (b.subbrands.map SubBrand.name)

/-- The first offender among the names of a rule set. -/
def RuleSet.nameError? (rs : RuleSet) : Option NameError :=
  (scopeError? .brands (rs.brands.map Brand.name)).or (rs.brands.findSome? Brand.nameError?)

end KeywordRules

import Etymology.Letters.Word
import Etymology.PartOfSpeech

namespace Etymology

/-- A link from a lexis to one ancestor, with the names of the transforms on the way. -/
structure Etymon where
  ancestor : String
  transforms : List String := []
  order : Int := 0
deriving DecidableEq, Inhabited

/-- The key under which a word may be generated is kept as the document gives it, whatever kind
of value that is. -/
structure Lexis where
  id : String
  word : Option Word := none
  language : String := ""
  kind : String := ""
  definition : String := ""
  pos : PartOfSpeech := .none
  archaic : Bool := false
  tags : List String := []
  generate : Value := .null
  history : List String := []
  etymons : List Etymon := []
deriving DecidableEq, Inhabited

namespace Lexis

/-- The word of its own that a lexis has, if that word is not empty. -/
def literal? (x : Lexis) : Option Word :=
  x.word.filter fun w => !w.isEmpty

/-- Etymons in the order in which their words are joined; ties keep the order of declaration. -/
def orderedEtymons (x : Lexis) : List Etymon :=
  x.etymons.mergeSort fun a b => decide (a.order ≤ b.order)

/-- The lexis with a word that was found for it. -/
def withWord (x : Lexis) (w : Word) : Lexis :=
  { x with word := some w }

/-- Two etymons have the same order, so that declaration decides between them. -/
def sharesOrder (x : Lexis) : Bool :=
  decide ¬ (x.etymons.map Etymon.order).Nodup

/-- A lexis whose word comes from a phonetic rule. -/
def isGenerated (x : Lexis) : Bool :=
  x.literal?.isNone && x.generate.isTruthy && x.etymons.isEmpty

theorem of_isGenerated {x : Lexis} (left : x.isGenerated = true) :
    x.literal? = none ∧ x.generate.isFalsy = false ∧ x.etymons = [] := by
  simpa [isGenerated, Value.isTruthy, and_assoc] using left

/-- A lexis whose word comes from none has a word of its own, etymons or no key. -/
theorem falsy_of_given {x : Lexis} (given : x.isGenerated = false) (bare : x.literal? = none)
    (unlinked : x.etymons = []) : x.generate.isFalsy = true := by
  simpa [isGenerated, bare, unlinked, Value.isTruthy] using given

end Lexis

/-- Which lexes a listing is restricted to. A filter that is absent restricts nothing. -/
structure Selection where
  language : Option String := none
  tag : Option String := none
  archaic : Option Bool := none
deriving DecidableEq, Inhabited

def Selection.admits (s : Selection) (x : Lexis) : Bool :=
  s.language.all (· == x.language) && s.tag.all x.tags.contains && s.archaic.all (· == x.archaic)

end Etymology

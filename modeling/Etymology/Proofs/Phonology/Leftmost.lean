import Etymology.Proofs.Control
import Etymology.Proofs.Phonology.Choices
import Mathlib.Algebra.Group.Nat.Defs

namespace Etymology

/-- A computation that makes choices and may fail. What was chosen before a failure stays chosen. -/
abbrev Draw := ExceptT Fault (StateM Picks)

namespace Draw

variable {α β : Type}

/-- What a computation comes to, with the choices as it leaves them. -/
def outcome (d : Draw α) (picks : Picks) : Except Fault α × Picks :=
  d picks

/-- One member of a list that has any. -/
def member (first : α) (others : List α) : Draw α := do
  let picks ← get
  set { picks with used := picks.used + 1 }
  return (first :: others).get ⟨picks.next % (others.length + 1), Nat.mod_lt _ (Nat.succ_pos _)⟩

end Draw

namespace Generator

/-- Expands a pattern from left to right, with the level at which its groups are nested. A group that has no
alternatives is as good as undeclared. -/
def leftmost (g : Generator) (level : Nat) : Pattern → Draw (List String)
  | [] => return []
  | .phoneme text :: rest => return text :: (← g.leftmost level rest)
  | .group symbol :: rest =>
    match g.phonology.groups.get? symbol with
    | none | some [] => throw (.unknownSymbol (.text symbol) .group)
    | some (first :: others) =>
      if _deep : g.limit < level then throw (.tooDeep symbol g.limit)
      else do
        let alternative ← Draw.member first others
        return (← g.leftmost (level + 1) alternative) ++ (← g.leftmost level rest)
termination_by pattern => (g.limit.toNat + 1 - level, pattern.length)
decreasing_by
  · exact .right _ (Nat.lt_succ_self _)
  · exact .left _ _ (by omega)
  · exact .right _ (Nat.lt_succ_self _)

section Termination

variable {g : Generator}

end Termination

end Generator

end Etymology

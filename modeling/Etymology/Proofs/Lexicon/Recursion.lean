import Etymology.Proofs.Graph.Links
import Etymology.Proofs.Lexicon.Derivation

namespace Etymology.Lexicon

/-- The recursive reading of a derivation, without phonetic rules: the outcome for an id follows
from the outcomes for the ancestors that its lexis names. -/
inductive Derives (l : Lexicon) : String → Except Fault Word → Prop
  | absent {id} : l.graph.get? id = none → Derives l id (.error (.unknownReference id .lexis none))
  | literal {id x w} : l.graph.get? id = some x → x.literal? = some w → Derives l id (.ok w)
  | keyed {id x} : l.graph.get? id = some x → x.literal? = none → x.etymons = [] →
      x.generate.isTruthy = true → Derives l id (.error (.unknownKey x.generate))
  | underspecified {id x} : l.graph.get? id = some x → x.literal? = none → x.etymons = [] →
      x.generate.isFalsy = true → Derives l id (.error (.underspecified id))
  | derived {id x} (word : String → Except Fault Word) : l.graph.get? id = some x →
      x.literal? = none → x.etymons ≠ [] → (∀ e ∈ x.etymons, Derives l e.ancestor (word e.ancestor)) →
      Derives l id (l.derive word x)

/-- The outcome for an id while the lexes of a path are in progress, where `leaf` settles the lexes
that have neither a word of their own nor etymons. -/
def meaning (l : Lexicon) (leaf : Lexis → Except Fault Word) (path : List String) (id : String) :
    Except Fault Word :=
  match _found : l.graph.get? id with
  | none => .error (.unknownReference id .lexis none)
  | some x => match x.literal? with
    | some w => .ok w
    | none =>
      if id ∈ path then .error (.cycle (path.dropWhile (· != id) ++ [id]))
      else if x.etymons.isEmpty then leaf x
      else l.derive (fun ancestor => l.meaning leaf (path ++ [id]) ancestor) x
termination_by openWeight (fun _ => 1) (fun x => !path.contains x.id) l.graph.nodes
decreasing_by
  · next fresh _ =>
    have same := Graph.id_of_get? _found
    have closes : ∀ y : Lexis, (!(path ++ [id]).contains y.id) = true →
        (!path.contains y.id) = true := by
      simp +contextual
    have := openWeight_add_le (fun _ => 1) closes (Graph.mem_of_get? _found)
      (by simpa [same] using fresh) (by simp [same])
    omega

/-- What a lexis without a word and without etymons is reported for where no phonetic rules are
at hand. -/
def wordless (x : Lexis) : Except Fault Word :=
  if x.generate.isFalsy then .error (.underspecified x.id) else .error (.unknownKey x.generate)

theorem Derives.unique {l : Lexicon} {id : String} {r s : Except Fault Word} (first : l.Derives id r)
    (second : l.Derives id s) : r = s := by
  induction first generalizing s with
  | absent unknown => cases second <;> simp_all
  | literal found word => cases second <;> simp_all
  | keyed found bare leaf key => cases second <;> simp_all [Value.isTruthy]
  | underspecified found bare leaf key => cases second <;> simp_all [Value.isTruthy]
  | @derived id x word found bare linked ancestors ih =>
    cases second with
    | @derived _ y word' found' _ _ ancestors' =>
      obtain rfl : x = y := Option.some.inj (found.symm.trans found')
      exact derive_congr (fun _ _ => rfl) fun e link => ih e link (ancestors' e link)
    | absent unknown => simp_all
    | literal found' word' => simp_all
    | keyed found' _ leaf => simp_all
    | underspecified found' _ leaf => simp_all

section Meaning

variable {l : Lexicon} {leaf : Lexis → Except Fault Word} {path : List String} {id : String} {x : Lexis}

theorem meaning_absent (absent : l.graph.get? id = none) :
    l.meaning leaf path id = .error (.unknownReference id .lexis none) := by
  rw [meaning]
  split <;> simp_all

theorem meaning_literal {w : Word} (found : l.graph.get? id = some x) (literal : x.literal? = some w) :
    l.meaning leaf path id = .ok w := by
  rw [meaning]
  split <;> simp_all

theorem meaning_cycle (found : l.graph.get? id = some x) (bare : x.literal? = none) (again : id ∈ path) :
    l.meaning leaf path id = .error (.cycle (path.dropWhile (· != id) ++ [id])) := by
  rw [meaning]
  split <;> simp_all

theorem meaning_leaf (found : l.graph.get? id = some x) (bare : x.literal? = none) (fresh : id ∉ path)
    (unlinked : x.etymons = []) : l.meaning leaf path id = leaf x := by
  rw [meaning]
  split <;> simp_all

theorem meaning_derived (found : l.graph.get? id = some x) (bare : x.literal? = none)
    (fresh : id ∉ path) (linked : x.etymons ≠ []) :
    l.meaning leaf path id = l.derive (l.meaning leaf (path ++ [id])) x := by
  rw [meaning]
  split <;> simp_all

end Meaning

/-- The order in which lexes were inserted has no part in what a derivation means. -/
theorem meaning_congr {l : Lexicon} {g : Graph} (look : ∀ id, g.get? id = l.graph.get? id)
    (leaf : Lexis → Except Fault Word) (path : List String) (id : String) :
    meaning { l with graph := g } leaf path id = l.meaning leaf path id := by
  fun_induction l.meaning leaf path id with
  | case1 path id absent => exact meaning_absent ((look id).trans absent)
  | case2 path id x found w literal => exact meaning_literal ((look id).trans found) literal
  | case3 path id x found bare again => exact meaning_cycle ((look id).trans found) bare again
  | case4 path id x found bare fresh unlinked =>
    exact meaning_leaf ((look id).trans found) bare fresh (List.isEmpty_iff.mp unlinked)
  | case5 path id x found bare fresh linked ih =>
    have linked : x.etymons ≠ [] := fun none => linked (List.isEmpty_iff.mpr none)
    rw [meaning_derived ((look id).trans found) bare fresh linked]
    exact derive_congr (fun e _ => look e.ancestor) fun e _ => ih e.ancestor

/-- Where no derivation runs in a circle, what is in progress has no part in what it means. The
induction follows the path, on which every lexis leads to the one that is asked for. -/
theorem derives_meaning {l : Lexicon} {path : List String} {id : String}
    (free : l.graph.CycleFreeFrom id)
    (leads : ∀ x, l.graph.get? id = some x → x.literal? = none →
      ∀ p ∈ path, Relation.TransGen l.graph.RestsOn p id) :
    l.Derives id (l.meaning wordless path id) := by
  fun_induction l.meaning wordless path id with
  | case1 path id absent => exact .absent absent
  | case2 path id x found w literal => exact .literal found literal
  | case3 path id x found bare again => exact absurd (leads x found bare id again) (free id .refl)
  | case4 path id x found bare fresh unlinked =>
    have unlinked := List.isEmpty_iff.mp unlinked
    by_cases falsy : x.generate.isFalsy = true
    · simpa [wordless, falsy, Graph.id_of_get? found] using Derives.underspecified found bare unlinked falsy
    · have truthy : x.generate.isTruthy = true := by simpa [Value.isTruthy] using falsy
      simpa [wordless, falsy] using Derives.keyed found bare unlinked truthy
  | case5 path id x found bare fresh linked ih =>
    have linked : x.etymons ≠ [] := fun none => linked (List.isEmpty_iff.mpr none)
    refine .derived _ found bare linked fun e link => ih e.ancestor (free.ancestor found bare link) ?_
    intro y atY bareY p onPath
    have rests : l.graph.RestsOn id e.ancestor := ⟨x, y, found, atY, bare, bareY, e, link, rfl⟩
    rcases List.mem_append.mp onPath with before | last
    · exact .tail (leads x found bare p before) rests
    · obtain rfl := List.mem_singleton.mp last
      exact .single rests

end Etymology.Lexicon

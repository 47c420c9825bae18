import Etymology.Project
import Etymology.Proofs.Control
import Etymology.Proofs.Graph.Seeding
import Etymology.Proofs.Lexicon.Steady
import Etymology.Proofs.Phonology.Declared

namespace Etymology.Project

/-- What may be asked of a project without a change to it. -/
inductive Request where
  | words
  | word (id : String)
  | render (s : Selection) (condition : Option Predicate)
  | statistics (language : Option String)
deriving Inhabited

inductive Answer where
  | words (found : Except Fault (List (String × String)))
  | word (text : Except Fault String)
  | render (rows : Except Fault (List Record))
  | statistics (counts : Statistics)
deriving DecidableEq, Inhabited

def answer (p : Project) : Request → Picks → Answer × Picks
  | .words, picks => match p.words picks with
    | (found, picks) => (.words found, picks)
  | .word id, picks => match p.word id picks with
    | (text, picks) => (.word text, picks)
  | .render s condition, picks => match p.render s condition picks with
    | (rows, picks) => (.render rows, picks)
  | .statistics language, picks => (.statistics (p.statistics language), picks)

/-- The answers to some requests in turn, each with the choices that those before have left. -/
def answers (p : Project) : List Request → Picks → List Answer × Picks
  | [], picks => ([], picks)
  | request :: requests, picks => match p.answer request picks with
    | (first, picks) => match p.answers requests picks with
      | (rest, picks) => (first :: rest, picks)

/-- Requests in any number and order are answered as each of them would be first, without a choice. -/
def Stable (p : Project) (picks : Picks) : Prop :=
  ∀ requests, p.answers requests picks = (requests.map fun request => (p.answer request picks).1, picks)

/-- Construction changes the graph only, and only by seeding it. -/
theorem seeded_of_build {parts p : Project} {checked : Bool} {picks after : Picks}
    (built : parts.build checked picks = (.ok p, after)) : parts.seeded picks = (.ok p, after) := by
  unfold build at built
  split at built
  · split at built
    · exact built
    · cases built
  · exact built

section Built

variable {parts p : Project} {phonology : Phonology} {checked : Bool} {picks after : Picks}

/-- With a phonology, construction is seeding. -/
theorem seed_of_build (voiced : parts.phonology = some phonology)
    (built : parts.build checked picks = (.ok p, after)) :
    ∃ g, parts.graph.seed { phonology := phonology } picks = (.ok g, after) ∧
      p = { parts with graph := g } := by
  have generator : parts.generator = some { phonology := phonology } := by
    rw [Project.generator, voiced, Option.map_some]
  have run := seeded_of_build built
  unfold seeded at run
  rw [generator] at run
  dsimp only at run
  split at run
  · next g rest seeding =>
    cases run
    exact ⟨g, seeding, rfl⟩
  · cases run

/-- A lexis is left to a phonetic rule only if that rule gave it the empty word. -/
theorem mute_of_build (voiced : parts.phonology = some phonology)
    (built : parts.build checked picks = (.ok p, after)) :
    ∀ x ∈ p.graph.nodes, x.isGenerated = true → Generator.Mute { phonology := phonology } x.generate := by
  obtain ⟨g, seeding, rfl⟩ := seed_of_build voiced built
  exact Graph.seed_mute seeding

/-- A phonology without empty patterns leaves no lexis without a word. -/
theorem settled_of_audible (voiced : parts.phonology = some phonology) (audible : phonology.Audible)
    (built : parts.build checked picks = (.ok p, after)) : ∀ x ∈ p.graph.nodes, x.isGenerated = false := by
  intro x member
  cases left : x.isGenerated with
  | false => rfl
  | true => exact absurd (mute_of_build voiced built x member left) (Generator.not_mute audible x.generate)

end Built

theorem snd_words (p : Project) (picks : Picks) :
    (p.words picks).2 = (p.lexicon.resolveAll { picks := picks }).2.picks := by
  unfold words
  split <;> simp [*]

theorem snd_word (p : Project) (id : String) (picks : Picks) :
    (p.word id picks).2 = (p.lexicon.resolve id { picks := picks }).2.picks := by
  unfold word
  split <;> simp [*]

/-- Where construction leaves no lexis to a phonetic rule, no request makes a choice. -/
theorem answer_picks {p : Project} (settled : ∀ x ∈ p.graph.nodes, x.isGenerated = false)
    (request : Request) (picks : Picks) : (p.answer request picks).2 = picks := by
  have supplied : p.lexicon.Supplied { picks := picks } := Lexicon.supplied_of_settled settled _
  cases request with
  | words => exact (p.snd_words picks).trans (supplied.after .resolveAll).picks
  | word id => exact (p.snd_word id picks).trans (supplied.resolve id).picks
  | render s condition => exact (supplied.render s condition).picks
  | statistics language => rfl

theorem stable_of_picks {p : Project} {picks : Picks}
    (still : ∀ request, (p.answer request picks).2 = picks) : p.Stable picks := by
  intro requests
  induction requests with
  | nil => rfl
  | cons request requests ih =>
    have here : p.answer request picks = ((p.answer request picks).1, picks) :=
      Prod.ext rfl (still request)
    rw [answers, here]
    dsimp only
    rw [ih, List.map_cons]

/-- Asking for the word of a lexis that is left to a phonetic rule makes a choice. -/
theorem used_lt_word {p : Project} {generator : Generator} {x : Lexis}
    (present : p.generator = some generator) (member : x ∈ p.graph.nodes) (left : x.isGenerated = true)
    (mute : generator.Mute x.generate) (picks : Picks) : picks.used < (p.word x.id picks).2.used := by
  obtain ⟨before, after, once⟩ := mute
  rw [snd_word, Lexicon.picks_of_isGenerated (l := p.lexicon) present member left picks]
  exact Generator.used_lt_createWordFor once picks

/-- A project answers alike each time exactly if construction gave a word to every lexis that phonetic
rules are to give one. The empty word is none, so that a phonology without empty patterns is enough. -/
theorem answers_stable_iff {parts p : Project} {phonology : Phonology} {checked : Bool}
    {picks after : Picks} (voiced : parts.phonology = some phonology)
    (built : parts.build checked picks = (.ok p, after)) :
    (p.Stable after ↔ ∀ x ∈ p.graph.nodes, x.isGenerated = false) ∧
      (phonology.Audible → p.Stable after) := by
  have enough : (∀ x ∈ p.graph.nodes, x.isGenerated = false) → p.Stable after := fun settled =>
    stable_of_picks fun request => answer_picks settled request after
  refine ⟨⟨?_, enough⟩, fun audible => enough (settled_of_audible voiced audible built)⟩
  intro stable x member
  by_contra left
  rw [Bool.not_eq_false] at left
  -- One request, for the word of the lexis that has none, already makes a choice.
  obtain ⟨g, -, rfl⟩ := seed_of_build voiced built
  have present : Project.generator { parts with graph := g } = some { phonology := phonology } := by
    rw [generator, voiced, Option.map_some]
  have more := used_lt_word present member left (mute_of_build voiced built x member left) after
  have same := congrArg Prod.snd (stable [.word x.id])
  simp only [answers, answer] at same
  rw [same] at more
  exact Nat.lt_irrefl _ more

/-- A syllable of a consonant and one of two vowels. -/
def openSyllables : Phonology where
  groups := ⟨[("V", [[.phoneme "a"], [.phoneme "i"]])], by decide⟩
  lexisTypes := ⟨[("root", [[.phoneme "t", .group "V"]])], by decide⟩

/-- A root whose word is such a syllable, and a lexis derived from it. -/
def openSyllable : Project where
  graph := {
    nodes := [
      { id := "seed", generate := .text "root" },
      { id := "child", etymons := [⟨"seed", [], 0⟩] }]
    ids_nodup := by decide }
  phonology := some openSyllables

/-- The root gets its word once, whatever is asked afterwards. -/
theorem openSyllable_stable :
    openSyllable.phonology = some openSyllables ∧ openSyllables.Audible ∧
      ∃ p after, openSyllable.build true ⟨[0, 1], 0⟩ = (.ok p, after) ∧
        p.words after = (.ok [("seed", "ti"), ("child", "ti")], after) ∧ p.Stable after := by
  have voiced : openSyllable.phonology = some openSyllables := rfl
  have audible : openSyllables.Audible := ⟨by decide, by decide⟩
  obtain ⟨p, after, built, said⟩ : ∃ p after, openSyllable.build true ⟨[0, 1], 0⟩ = (.ok p, after) ∧
      decide (p.words after = (.ok [("seed", "ti"), ("child", "ti")], after)) = true :=
    exists_of_evaluated (by decide +kernel)
  refine ⟨voiced, audible, p, after, built, of_decide_eq_true said, ?_⟩
  exact (answers_stable_iff voiced built).2 audible

/-- A root whose word is a vowel that may be absent. -/
def optionalVowel : Project where
  graph := {
    nodes := [{ id := "seed", generate := .text "root" }]
    ids_nodup := by decide }
  phonology := some {
    groups := ⟨[("V", [[], [.phoneme "a"]])], by decide⟩
    lexisTypes := ⟨[("root", [[.group "V"]])], by decide⟩ }

/-- The word that construction chooses for the root is empty, and each later request chooses another. -/
theorem optionalVowel_unstable :
    (∃ phonology, optionalVowel.phonology = some phonology ∧ phonology.Built) ∧
      ∃ p after, optionalVowel.build true ⟨[0, 0, 0, 1], 0⟩ = (.ok p, after) ∧ after.used = 2 ∧
        p.answers [.words, .words] after =
          ([.words (.ok [("seed", "a")]), .words (.ok [("seed", "")])], ⟨[0, 0, 0, 1], 6⟩) := by
  constructor
  · refine ⟨_, rfl, .read (v := .mapping [
      (.text "groups", .mapping [(.text "V", .list [.text "", .text "a"])]),
      (.text "lexis_types", .mapping [(.text "root", .list [.text "V"])])]) ?_⟩
    rfl
  · obtain ⟨p, after, built, evaluated⟩ : ∃ p after,
        optionalVowel.build true ⟨[0, 0, 0, 1], 0⟩ = (.ok p, after) ∧
          decide (after.used = 2 ∧ p.answers [.words, .words] after =
            ([.words (.ok [("seed", "a")]), .words (.ok [("seed", "")])], ⟨[0, 0, 0, 1], 6⟩)) = true :=
      exists_of_evaluated (by decide +kernel)
    obtain ⟨twice, said⟩ := of_decide_eq_true evaluated
    exact ⟨p, after, built, twice, said⟩

end Etymology.Project

import ForkTape.Machine

/-!
# Answers of an iteration

The number of turns that an iteration is given decides only whether its answer is found, never
what the answer is. So an iteration is read here as a relation between states and answers:
`Answers turn state answer` says that some number of turns, begun at `state`, finds `answer`.

Two iterations are compared in four ways. `iterate_map` forgets part of the states of an
iteration, turn by turn. `KeepsStep` relates iterations that go on together until the first has
its answer, when the second may still need turns of its own. `TurnsAlike` relates iterations that
take as many turns, unless the first comes to an answer of a kind that makes them part.
`KeepsPace` relates iterations of which the first takes further turns between those that both take
alike, never endlessly many in a row.
-/

namespace ForkTape

/-- Some number of turns, begun at `state`, finds `answer`. -/
def Answers (turn : σ → σ ⊕ α) (state : σ) (answer : α) : Prop :=
  ∃ fuel, iterate turn fuel state = some answer

section Answers

variable {turn : σ → σ ⊕ α}

theorem answers_iff_of_turn_inl {state next : σ} (turned : turn state = .inl next)
    (answer : α) : Answers turn state answer ↔ Answers turn next answer := by
  constructor
  · rintro ⟨fuel, answered⟩
    cases fuel with
    | zero => simp [iterate] at answered
    | succ fuel =>
        rw [iterate, turned] at answered
        exact ⟨fuel, answered⟩
  · rintro ⟨fuel, answered⟩
    refine ⟨fuel + 1, ?_⟩
    rw [iterate, turned]
    exact answered

theorem answers_iff_of_turn_inr {state : σ} {found : α} (turned : turn state = .inr found)
    (answer : α) : Answers turn state answer ↔ answer = found := by
  constructor
  · rintro ⟨fuel, answered⟩
    cases fuel with
    | zero => simp [iterate] at answered
    | succ fuel =>
        rw [iterate, turned] at answered
        exact (Option.some.inj answered).symm
  · rintro rfl
    exact ⟨1, by rw [iterate, turned]⟩

/-- An iteration has at most one answer. -/
theorem Answers.unique {state : σ} {first second : α} (firstAnswer : Answers turn state first)
    (secondAnswer : Answers turn state second) : first = second := by
  obtain ⟨firstFuel, firstFound⟩ := firstAnswer
  obtain ⟨secondFuel, secondFound⟩ := secondAnswer
  have both := iterate_mono firstFound secondFuel
  rw [Nat.add_comm, iterate_mono secondFound firstFuel] at both
  exact (Option.some.inj both).symm

/-- What every turn preserves holds of the answer. -/
theorem Answers.preserves (property : σ → Prop) (result : α → Prop) {state : σ} {answer : α}
    (answered : Answers turn state answer) (start : property state)
    (continues : ∀ state next, property state → turn state = .inl next → property next)
    (ends : ∀ state found, property state → turn state = .inr found → result found) :
    result answer := by
  obtain ⟨fuel, found⟩ := answered
  induction fuel generalizing state with
  | zero => simp [iterate] at found
  | succ fuel ih =>
      rw [iterate] at found
      cases turned : turn state with
      | inl next =>
          rw [turned] at found
          exact ih (continues state next start turned) found
      | inr answer =>
          rw [turned] at found
          cases found
          exact ends state answer start turned

end Answers

/-- Forgetting part of the state turn by turn forgets it in the whole iteration. -/
theorem iterate_map {turn : σ → σ ⊕ α} {image : τ → τ ⊕ β} (state : σ → τ) (answer : α → β)
    (turns : ∀ source, image (state source) = (turn source).map state answer)
    (fuel : Nat) (source : σ) :
    iterate image fuel (state source) = (iterate turn fuel source).map answer := by
  induction fuel generalizing source with
  | zero => rfl
  | succ fuel ih =>
      rw [iterate, iterate, turns]
      cases turn source with
      | inl next => exact ih next
      | inr found => rfl

section Simulation

variable {left : σ → σ ⊕ α} {right : τ → τ ⊕ β} {states : σ → τ → Prop}
  {answers : α → β → Prop}

/-- Two iterations keep in step: from related states both go on to related states, or the first
has an answer and the second will find a related one. -/
def KeepsStep (left : σ → σ ⊕ α) (right : τ → τ ⊕ β) (states : σ → τ → Prop)
    (answers : α → β → Prop) : Prop :=
  ∀ source target, states source target →
    (∃ sourceNext targetNext, left source = .inl sourceNext ∧ right target = .inl targetNext ∧
      states sourceNext targetNext) ∨
    (∃ sourceAnswer targetAnswer, left source = .inr sourceAnswer ∧
      Answers right target targetAnswer ∧ answers sourceAnswer targetAnswer)

/-- Every answer of the first iteration is matched by the second. -/
theorem KeepsStep.forward (keeps : KeepsStep left right states answers) {source : σ}
    {target : τ} (related : states source target) {sourceAnswer : α}
    (answered : Answers left source sourceAnswer) :
    ∃ targetAnswer, Answers right target targetAnswer ∧ answers sourceAnswer targetAnswer := by
  obtain ⟨fuel, found⟩ := answered
  induction fuel generalizing source target with
  | zero => simp [iterate] at found
  | succ fuel ih =>
      rw [iterate] at found
      rcases keeps source target related with
        ⟨sourceNext, targetNext, leftTurn, rightTurn, nextRelated⟩ |
        ⟨leftAnswer, targetAnswer, leftTurn, rightAnswered, answersRelated⟩
      · rw [leftTurn] at found
        obtain ⟨targetAnswer, rightAnswered, answersRelated⟩ := ih nextRelated found
        exact ⟨targetAnswer, (answers_iff_of_turn_inl rightTurn _).mpr rightAnswered,
          answersRelated⟩
      · rw [leftTurn] at found
        cases found
        exact ⟨targetAnswer, rightAnswered, answersRelated⟩

/-- Every answer of the second iteration is matched by the first. -/
theorem KeepsStep.backward (keeps : KeepsStep left right states answers) {source : σ}
    {target : τ} (related : states source target) {targetAnswer : β}
    (answered : Answers right target targetAnswer) :
    ∃ sourceAnswer, Answers left source sourceAnswer ∧ answers sourceAnswer targetAnswer := by
  obtain ⟨fuel, found⟩ := answered
  induction fuel generalizing source target with
  | zero => simp [iterate] at found
  | succ fuel ih =>
      rcases keeps source target related with
        ⟨sourceNext, targetNext, leftTurn, rightTurn, nextRelated⟩ |
        ⟨leftAnswer, rightAnswer, leftTurn, rightAnswered, answersRelated⟩
      · rw [iterate, rightTurn] at found
        obtain ⟨sourceAnswer, leftAnswered, answersRelated⟩ := ih nextRelated found
        exact ⟨sourceAnswer, (answers_iff_of_turn_inl leftTurn _).mpr leftAnswered,
          answersRelated⟩
      · obtain rfl := Answers.unique rightAnswered ⟨fuel + 1, found⟩
        exact ⟨leftAnswer, (answers_iff_of_turn_inr leftTurn _).mpr rfl, answersRelated⟩

/-- What a turn of each of two iterations has come to. Both go on or both have an answer, unless the
first has one that makes them part. -/
inductive TurnsAlike (states : σ → τ → Prop) (answers : α → β → Prop) (parts : α → Prop) :
    σ ⊕ α → τ ⊕ β → Prop
  | continued {source : σ} {target : τ} (related : states source target) :
      TurnsAlike states answers parts (.inl source) (.inl target)
  | answered {sourceAnswer : α} {targetAnswer : β} (related : answers sourceAnswer targetAnswer) :
      TurnsAlike states answers parts (.inr sourceAnswer) (.inr targetAnswer)
  | parted {sourceAnswer : α} {turned : τ ⊕ β} (parted : parts sourceAnswer) :
      TurnsAlike states answers parts (.inr sourceAnswer) turned

/-- Every answer of the first iteration is matched by the second in as many turns, unless it is one
that makes them part. -/
theorem iterate_alike {parts : α → Prop}
    (alike : ∀ source target, states source target →
      TurnsAlike states answers parts (left source) (right target))
    {fuel : Nat} {source : σ} {target : τ} (related : states source target) {sourceAnswer : α}
    (found : iterate left fuel source = some sourceAnswer) :
    parts sourceAnswer ∨ ∃ targetAnswer, iterate right fuel target = some targetAnswer ∧
      answers sourceAnswer targetAnswer := by
  induction fuel generalizing source target with
  | zero => simp [iterate] at found
  | succ fuel ih =>
      have turned := alike source target related
      rw [iterate] at found
      generalize left source = leftTurn at turned found
      generalize rightTurn : right target = rightTurn at turned
      cases turned with
      | continued next =>
          rw [iterate, rightTurn]
          exact ih next found
      | answered same =>
          cases found
          rw [iterate, rightTurn]
          exact .inr ⟨_, rfl, same⟩
      | parted parted =>
          cases found
          exact .inl parted

/-- Two iterations keep pace: from related states the first takes a turn by itself, with less delay
left than before, or both take turns alike. -/
def KeepsPace (left : σ → σ ⊕ α) (right : τ → τ ⊕ β) (states : σ → τ → Prop)
    (answers : α → β → Prop) (delay : σ → Nat) : Prop :=
  ∀ source target, states source target →
    (∃ next, left source = .inl next ∧ states next target ∧ delay next < delay source) ∨
    TurnsAlike states answers (fun _ => False) (left source) (right target)

variable {delay : σ → Nat}

/-- Every answer of the first iteration is matched by the second. -/
theorem KeepsPace.forward (keeps : KeepsPace left right states answers delay) {source : σ}
    {target : τ} (related : states source target) {sourceAnswer : α}
    (answered : Answers left source sourceAnswer) :
    ∃ targetAnswer, Answers right target targetAnswer ∧ answers sourceAnswer targetAnswer := by
  obtain ⟨fuel, found⟩ := answered
  induction fuel generalizing source target with
  | zero => simp [iterate] at found
  | succ fuel ih =>
      rw [iterate] at found
      rcases keeps source target related with ⟨next, turned, nextRelated, _⟩ | alike
      · rw [turned] at found
        exact ih nextRelated found
      · generalize left source = leftTurn at alike found
        generalize rightTurn : right target = rightTurn at alike
        cases alike with
        | continued nextRelated =>
            obtain ⟨targetAnswer, rightAnswered, answersRelated⟩ := ih nextRelated found
            exact ⟨targetAnswer, (answers_iff_of_turn_inl rightTurn _).mpr rightAnswered,
              answersRelated⟩
        | answered same =>
            cases found
            exact ⟨_, (answers_iff_of_turn_inr rightTurn _).mpr rfl, same⟩
        | parted impossible => exact impossible.elim

/-- Every answer of the second iteration is matched by the first. Between two turns of the second
the first uses its delay up. -/
theorem KeepsPace.backward (keeps : KeepsPace left right states answers delay) {source : σ}
    {target : τ} (related : states source target) {targetAnswer : β}
    (answered : Answers right target targetAnswer) :
    ∃ sourceAnswer, Answers left source sourceAnswer ∧ answers sourceAnswer targetAnswer := by
  obtain ⟨fuel, found⟩ := answered
  induction fuel generalizing source target with
  | zero => simp [iterate] at found
  | succ fuel ih =>
      induction remaining : delay source using Nat.strongRecOn generalizing source with
      | ind remaining ihDelay =>
          rcases keeps source target related with ⟨next, turned, nextRelated, shorter⟩ | alike
          · obtain ⟨sourceAnswer, leftAnswered, answersRelated⟩ :=
              ihDelay (delay next) (remaining ▸ shorter) nextRelated rfl
            exact ⟨sourceAnswer, (answers_iff_of_turn_inl turned _).mpr leftAnswered,
              answersRelated⟩
          · rw [iterate] at found
            generalize leftTurn : left source = leftTurn at alike
            generalize right target = rightTurn at alike found
            cases alike with
            | continued nextRelated =>
                obtain ⟨sourceAnswer, leftAnswered, answersRelated⟩ := ih nextRelated found
                exact ⟨sourceAnswer, (answers_iff_of_turn_inl leftTurn _).mpr leftAnswered,
                  answersRelated⟩
            | answered same =>
                cases found
                exact ⟨_, (answers_iff_of_turn_inr leftTurn _).mpr rfl, same⟩
            | parted impossible => exact impossible.elim

end Simulation

end ForkTape

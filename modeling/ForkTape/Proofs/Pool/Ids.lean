import ForkTape.Proofs.Pool.LiveBudget
import ForkTape.Proofs.Pool.StepCount
import ForkTape.Proofs.Pool.Usage

/-!
# Ids in 32 bits

The counter from which ids are given away is not held by a limit of its own. But every id costs a
`fork`, and a `fork` that is executed counts against the global limit, whether it is carried out or
refused. So where that limit is small enough for a number of 32 bits, a counter of 32 bits does not
wrap around, and every child gets an id that nobody has had (`Pool.numbered_of_history`).

The counter of 32 bits is told from the turns of a history (`Pool.wordAfter?`), beside the pool and
its own counter.
-/

namespace ForkTape.Pool

variable {program : Program} {config : Config} {input : Input}

/-! ## What a turn counts -/

namespace Move

variable {move : Move}

/-- Whoever is forked off comes of a `fork` that is executed. -/
theorem executed?_of_child? {child : Nat} (forks : move.child? program config = some child) :
    move.executed? program config = some .fork := by
  rcases move with ⟨machine, round⟩
  obtain ⟨heirs, become, _, nextId⟩ := (Round.turned program config machine round).leaves
  generalize ended : Round.fault? (round.turn program config machine) = fault? at become
  cases become with
  | forked live found admitted => exact (executed?_eq_instruction? ended live).trans found
  | _ =>
      rw [child?_eq_none nextId] at forks
      contradiction

/-- The next id goes up by one for every machine that is forked off. -/
theorem nextId_after (program : Program) (config : Config) (move : Move) :
    (move.after program config).ledger.nextId =
      move.before.ledger.nextId + if (move.child? program config).isSome then 1 else 0 := by
  rcases move with ⟨machine, round⟩
  obtain ⟨heirs, become, _, nextId⟩ := (Round.turned program config machine round).leaves
  change (Round.left (round.turn program config machine)).ledger.nextId =
    round.ledger.nextId + _
  generalize Round.fault? (round.turn program config machine) = fault? at become
  cases become with
  | forked live found admitted =>
      rw [child?_eq_some nextId]
      exact Nat.succ.inj nextId
  | _ =>
      rw [child?_eq_none nextId]
      exact Nat.succ.inj nextId

/-- A `fork` that is executed is counted by the pool. -/
theorem globalSteps_after (program : Program) (config : Config) (move : Move) :
    (move.before.ledger.globalSteps +
      if move.executed? program config = some .fork then 1 else 0) ≤
        (move.after program config).ledger.globalSteps := by
  rcases move with ⟨machine, round⟩
  have counted := (Round.turned program config machine round).globalSteps_eq
  change round.ledger.globalSteps + _ ≤
    (Round.left (round.turn program config machine)).ledger.globalSteps
  rw [counted]
  apply Nat.add_le_add_left
  split
  · rename_i forks
    rw [executed?, result, Option.ite_none_right_eq_some, Bool.and_eq_true] at forks
    obtain ⟨⟨finished, live⟩, found⟩ := forks
    have pending : machine.pending program = true := by
      rw [Machine.pending, live, Bool.true_and]
      exact decide_eq_true (program.lt_size_of_instruction? found)
    rw [finished, pending]
    exact Nat.le_refl _
  · exact Nat.zero_le _

/-- A `fork` that is executed is carried out or refused. -/
theorem Spends.accounts (spends : Spends program config move) :
    (if (move.child? program config).isSome then 1 else 0) +
        (move.after program config).report.refusals.length =
      move.before.report.refusals.length +
        if move.executed? program config = some .fork then 1 else 0 := by
  cases spends with
  | plain elsewhere running refusals =>
      have single : move.child? program config = none := by
        cases child : move.child? program config with
        | none => rfl
        | some child => exact absurd (executed?_of_child? child) elsewhere
      rw [single, refusals, if_neg elsewhere]
      exact Nat.zero_add _
  | forked verdict room running refusals =>
      rw [verdict?, Option.ite_none_right_eq_some] at verdict
      obtain ⟨forks, verdict⟩ := verdict
      cases child : move.child? program config with
      | none => simp [child] at verdict
      | some child =>
          rw [refusals, if_pos forks]
          exact Nat.add_comm _ _
  | refused verdict live found full running refusals =>
      rw [verdict?, Option.ite_none_right_eq_some] at verdict
      obtain ⟨forks, verdict⟩ := verdict
      cases child : move.child? program config with
      | none =>
          rw [refusals, if_pos forks, List.length_append]
          exact Nat.zero_add _
      | some child => simp [child] at verdict

end Move

/-! ## What forks cost -/

/-- How many of the turns have executed a `fork`. -/
def forkTurns (program : Program) (config : Config) (moves : List Move) : Nat :=
  moves.countP fun move => move.executed? program config = some .fork

/-- The books of the pool, to which the turns `moves` have led, account for every `fork`. -/
structure Accounts (program : Program) (config : Config) (moves : List Move) (pool : Pool) :
    Prop where
  /-- Every `fork` that has been executed has given an id away or has been refused. -/
  resolved : pool.ledger.nextId + pool.report.refusals.length =
    1 + forkTurns program config moves
  paid : forkTurns program config moves ≤ pool.ledger.globalSteps

/-- The next id exceeds what has been paid for it by one at most. -/
theorem Accounts.nextId_le {moves : List Move} {pool : Pool}
    (accounts : Accounts program config moves pool) :
    pool.ledger.nextId ≤ pool.ledger.globalSteps + 1 := by
  have resolved := accounts.resolved
  have paid := accounts.paid
  omega

theorem forkTurns_append (moves : List Move) (move : Move) :
    forkTurns program config (moves ++ [move]) = forkTurns program config moves +
      if move.executed? program config = some .fork then 1 else 0 := by
  rw [forkTurns, List.countP_append, List.countP_singleton, forkTurns]
  simp only [decide_eq_true_eq]

/-- A turn keeps the accounts. -/
theorem Accounts.turn {past : List Move} {move : Move}
    (accounts : Accounts program config past move.before) (retired : move.before.RetiredHalted) :
    Accounts program config (past ++ [move]) (move.after program config) where
  resolved := by
    have spends : move.Spends program config := Move.spends retired
    have accounted := spends.accounts
    have nextId := move.nextId_after program config
    have before := accounts.resolved
    rw [forkTurns_append]
    omega
  paid := by
    have counted := move.globalSteps_after program config
    have before := accounts.paid
    rw [forkTurns_append]
    omega

/-- Turns and the retiring of halted machines keep the accounts. -/
theorem accounts_recorded (program : Program) (config : Config) :
    Recorded program config fun moves pool =>
      pool.RetiredHalted ∧ Accounts program config moves pool where
  turn {past machine round} before := by
    have accounts : Accounts program config past (Move.before ⟨machine, round⟩) := before.2
    exact ⟨(retiredHalted_kept program config).turn (Round.turned program config machine round)
      before.1, accounts.turn before.1⟩
  retire {past pool} before :=
    ⟨(retiredHalted_kept program config).retire before.1, before.2.resolved, before.2.paid⟩

/-! ## Counting in 32 bits -/

/-- A number of 32 bits raised by one, unless it would wrap around. -/
def raise? (word : UInt32) : Option UInt32 :=
  if word = 0xFFFFFFFF then none else some (word + 1)

/-- A counter of 32 bits that begins at one and has been raised for every machine forked off in the
turns, unless it would have wrapped around. -/
def wordAfter? (program : Program) (config : Config) (moves : List Move) : Option UInt32 :=
  moves.foldlM (fun word move =>
    if (move.child? program config).isSome then raise? word else some word) 1

/-- A number that has the next one in 32 bits is raised to it. -/
theorem raise?_eq_some {word : UInt32} (room : word.toNat + 1 < 2 ^ 32) :
    raise? word = some (word + 1) ∧ (word + 1).toNat = word.toNat + 1 := by
  constructor
  · apply if_neg
    rintro rfl
    exact absurd room (by decide)
  · rw [UInt32.toNat_add, UInt32.toNat_one, Nat.mod_eq_of_lt room]

theorem wordAfter?_append (moves : List Move) (move : Move) :
    wordAfter? program config (moves ++ [move]) =
      (wordAfter? program config moves).bind fun word =>
        if (move.child? program config).isSome then raise? word else some word := by
  simp [wordAfter?, List.foldlM_append]

/-- A counter of 32 bits gives away the ids of the pool, to which the turns `moves` have led. -/
structure Numbered (program : Program) (config : Config) (moves : List Move) (pool : Pool) :
    Prop where
  /-- The counter has not wrapped around. -/
  shown : ∃ word, wordAfter? program config moves = some word ∧ word.toNat = pool.ledger.nextId
  /-- A child gets the number that the counter shows, and nobody has had it. -/
  fresh : ∀ index move child, moves[index]? = some move → move.child? program config = some child →
    ∃ word, wordAfter? program config (moves.take index) = some word ∧ word.toNat = child ∧
      ∀ other ∈ move.before.members, UInt32.ofNat other.id ≠ word

namespace Numbered

variable {past : List Move} {move : Move} {pool : Pool}

/-- The counter shows a number that nobody has had. -/
theorem ofNat_id_ne {word : UInt32} (tells : pool.ledger.Tells pool.members)
    (same : word.toNat = pool.ledger.nextId) :
    ∀ other ∈ pool.members, UInt32.ofNat other.id ≠ word := by
  rintro other otherMem rfl
  have older := tells.id_lt otherMem
  rw [← same, UInt32.toNat_ofNat'] at older
  exact absurd (Nat.mod_le other.id (2 ^ 32)) (Nat.not_le.mpr older)

/-- The counter is raised with the next id of the pool. -/
theorem turn (numbered : Numbered program config past move.before)
    (tells : move.before.ledger.Tells move.before.members)
    (room : (move.after program config).ledger.nextId < 2 ^ 32) :
    Numbered program config (past ++ [move]) (move.after program config) := by
  obtain ⟨word, shown, same⟩ := numbered.shown
  have nextId := Move.nextId_after program config move
  constructor
  · rw [wordAfter?_append, shown, Option.bind_some]
    cases child : move.child? program config with
    | none =>
        rw [child, Option.isSome_none, if_neg Bool.false_ne_true] at nextId
        exact ⟨word, rfl, by rw [same, nextId, Nat.add_zero]⟩
    | some child =>
        rw [child, Option.isSome_some, if_pos rfl, ← same] at nextId
        obtain ⟨raised, raised_toNat⟩ := raise?_eq_some (nextId ▸ room)
        exact ⟨word + 1, raised, raised_toNat.trans nextId.symm⟩
  · intro index other child found forks
    rcases Nat.lt_trichotomy index past.length with earlier | rfl | later
    · rw [List.getElem?_append_left earlier] at found
      rw [List.take_append_of_le_length (Nat.le_of_lt earlier)]
      exact numbered.fresh index other child found forks
    · rw [List.getElem?_concat_length] at found
      cases found
      rw [List.take_left]
      have isNext : child = move.before.ledger.nextId := by
        rw [Move.child?, Option.ite_none_left_eq_some] at forks
        exact (Option.some.inj forks.2).symm
      exact ⟨word, shown, same.trans isNext.symm, ofNat_id_ne tells same⟩
    · have beyond : (past ++ [move]).length ≤ index := by
        rw [List.length_append]
        exact later
      rw [List.getElem?_eq_none beyond] at found
      contradiction

end Numbered

/-- Turns within a limit that leaves room keep to the numbers of 32 bits. -/
theorem numbered_recorded {limit : Nat} (limited : config.maxGlobalSteps = some limit)
    (small : limit ≤ 2 ^ 32 - 2) :
    Recorded program config fun moves pool =>
      (pool.RetiredHalted ∧ Accounts program config moves pool) ∧
        pool.ledger.Tells pool.members ∧ pool.ledger.globalSteps ≤ limit ∧
          Numbered program config moves pool where
  turn {past machine round} before := by
    obtain ⟨books, tells, within, numbered⟩ := before
    have turned := Round.turned program config machine round
    have laterBooks := (accounts_recorded program config).turn books
    have laterWithin := (globalSteps_le_kept program limited).turn turned within
    refine ⟨laterBooks, (tells_kept program config).turn turned tells, laterWithin, ?_⟩
    have before : Numbered program config past (Move.before ⟨machine, round⟩) := numbered
    apply before.turn tells
    apply Nat.lt_of_le_of_lt (Nat.le_trans laterBooks.2.nextId_le (Nat.succ_le_succ laterWithin))
    omega
  retire {past pool} before := by
    obtain ⟨books, tells, within, numbered⟩ := before
    exact ⟨(accounts_recorded program config).retire books,
      (tells_kept program config).retire tells, within, numbered.shown, numbered.fresh⟩

/-- With a global limit of at most `2 ^ 32 - 2` instructions, whatever rounds and runs have led to a
pool, and whether or not they ended in a fault: the next id is the number of machines there have
been; all of them but the first, together with the refusals, are as many as the forks that have been
executed, which the pool has counted; and a counter of 32 bits has given away the same ids without
wrapping around, each of them to a child whose id nobody had had before. -/
theorem numbered_of_history {limit : Nat} (limited : config.maxGlobalSteps = some limit)
    (small : limit ≤ 2 ^ 32 - 2) {past : List Pool} {pool : Pool}
    (history : History program config input past pool) :
    pool.ledger.nextId = pool.report.results.length ∧
      Accounts program config (past.flatMap (moves program config)) pool ∧
      Numbered program config (past.flatMap (moves program config)) pool := by
  have accounts : Accounts program config [] (initial config input) := ⟨rfl, Nat.le_refl _⟩
  have numbered : Numbered program config [] (initial config input) := by
    refine ⟨⟨1, rfl, rfl⟩, ?_⟩
    intro index move child found
    contradiction
  obtain ⟨⟨_, accounts⟩, tells, _, numbered⟩ :=
    (numbered_recorded limited small).of_history
      ⟨⟨retiredHalted_initial config input, accounts⟩, tells_initial config input,
        Nat.zero_le limit, numbered⟩ history
  exact ⟨(length_results tells).symm, accounts, numbered⟩

/-- A machine and a refusal cost two forks. The limit has then been reached, and it ends the second
round before the third `fork`. -/
theorem forkTwice_numbered :
    2 ≤ 2 ^ 32 - 2 ∧ ∃ past pool,
      History forkTwice { maxLive := 2, maxGlobalSteps := some 2 } ⟨[]⟩ past pool ∧
      pool.report.refusals = [⟨0, 1, 2, 2⟩] ∧ pool.ledger.globalSteps = 2 ∧
      wordAfter? forkTwice { maxLive := 2, maxGlobalSteps := some 2 }
        (past.flatMap (moves forkTwice { maxLive := 2, maxGlobalSteps := some 2 })) = some 2 ∧
      pool.ledger.nextId = pool.report.results.length ∧
      Accounts forkTwice { maxLive := 2, maxGlobalSteps := some 2 }
        (past.flatMap (moves forkTwice { maxLive := 2, maxGlobalSteps := some 2 })) pool ∧
      Numbered forkTwice { maxLive := 2, maxGlobalSteps := some 2 }
        (past.flatMap (moves forkTwice { maxLive := 2, maxGlobalSteps := some 2 })) pool := by
  have small : 2 ≤ 2 ^ 32 - 2 := by decide
  exact ⟨small, _, _, .sweep (.sweep .initial), by decide +kernel, by decide +kernel,
    by decide +kernel, numbered_of_history rfl small (.sweep (.sweep .initial))⟩

end ForkTape.Pool

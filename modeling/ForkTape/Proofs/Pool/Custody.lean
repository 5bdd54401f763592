import ForkTape.Proofs.Pool.Heirs
import ForkTape.Proofs.Pool.History
import ForkTape.Proofs.Pool.Lineage
import Mathlib.Algebra.GroupWithZero.Nat

/-!
# Custody of the input

The input of a run is a row of positions. Each of them is at any time in the custody of one
machine, or has been read: the positions of a machine are a span of the input, a machine that
reads gives up the first of them, and a machine that forks cuts its span in two.

`Custody` keeps the spans and the positions that have been read, `Custody.Follows` lets it follow
the turns of a history, and `Custody.Accounts` says what it accounts for: the unread input of
every machine is the input at its span, and no position is lost, shared or read twice
(`exists_custody`). The invariant behind it is one equation up to order: the positions read and
those of all spans together are the positions of the input (`Custody.Guards`).
-/

namespace ForkTape

namespace Input

/-- A row of positions of an input. -/
structure Span where
  start : Nat
  length : Nat

namespace Span

/-- The positions of a span, in order. -/
def positions (span : Span) : List Nat := List.range' span.start span.length

/-- The bytes of an input at the positions of a span. -/
def bytes (span : Span) (input : Input) : List UInt8 :=
  (input.unread.drop span.start).take span.length

/-- The span without its first position. -/
def tail (span : Span) : Span := ⟨span.start + 1, span.length - 1⟩

/-- The first `count` positions of a span. -/
def front (count : Nat) (span : Span) : Span := ⟨span.start, count⟩

/-- The span without its first `count` positions. -/
def rest (count : Nat) (span : Span) : Span := ⟨span.start + count, span.length - count⟩

variable {span : Span} {input : Input}

theorem length_bytes_le (span : Span) (input : Input) :
    (span.bytes input).length ≤ span.length :=
  List.length_take_le _ _

/-- A span within the input has a byte at each of its positions. -/
theorem length_bytes (within : ∀ position ∈ span.positions, position < input.unread.length) :
    (span.bytes input).length = span.positions.length := by
  rcases span with ⟨start, length⟩
  simp only [bytes, positions, List.length_take, List.length_drop, List.length_range']
  cases length with
  | zero => exact Nat.zero_min _
  | succ length =>
      have last := within (start + length) (by simp [positions])
      omega

/-- Where there is a byte to read, it stands at the first position. -/
theorem positions_eq_cons {byte : UInt8} {later : List UInt8}
    (found : span.bytes input = byte :: later) :
    span.positions = span.start :: span.tail.positions := by
  rcases span with ⟨start, length⟩
  cases length with
  | zero => simp [bytes] at found
  | succ length => rfl

theorem bytes_tail {byte : UInt8} {later : List UInt8}
    (found : span.bytes input = byte :: later) : span.tail.bytes input = later := by
  rcases span with ⟨start, length⟩
  cases length with
  | zero => simp [bytes] at found
  | succ length =>
      simp only [bytes, tail, Nat.add_sub_cancel]
      rw [← List.drop_drop]
      cases remaining : input.unread.drop start with
      | nil => simp [bytes, remaining] at found
      | cons first others =>
          simp only [bytes, remaining, List.take_succ_cons, List.cons.injEq] at found
          exact found.2

theorem bytes_front {count : Nat} (within : count ≤ span.length) :
    (span.front count).bytes input = (span.bytes input).take count := by
  simp [bytes, front, List.take_take, Nat.min_eq_left within]

theorem bytes_rest (count : Nat) :
    (span.rest count).bytes input = (span.bytes input).drop count := by
  simp [bytes, rest, List.drop_take]

theorem positions_front_append_rest {count : Nat} (within : count ≤ span.length) :
    (span.front count).positions ++ (span.rest count).positions = span.positions := by
  have parts : count + (span.length - count) = span.length := Nat.add_sub_cancel' within
  simp only [positions, front, rest]
  rw [List.range'_append_1, parts]

end Span

theorem Split.kept_le (split : Split) (count : Nat) : split.kept count ≤ count := by
  cases split <;> simp only [Split.kept]
  · split <;> omega
  all_goals omega

end Input

namespace Machine

/-- Only `,` changes the input, and it leaves what reading leaves. -/
theorem perform_input (program : Program) (overflow : Tape.Overflow) (instruction : Instruction)
    (machine : Machine) :
    (perform program overflow instruction machine).machine.input =
      if instruction = .input then machine.input.read.2 else machine.input := by
  cases instruction with
  | right =>
      rcases moved : machine.tape.right overflow with ⟨tape, result⟩
      cases result <;> simp [perform, moved, advance]
  | _ => simp [perform, advance]

end Machine

namespace Pool

/-- Who has which positions of the input, and which positions have been read. -/
structure Custody where
  /-- The positions that each machine has yet to read, by its id. -/
  span : Nat → Input.Span
  /-- The positions that have been read, in the order in which they were. -/
  reads : List Nat

namespace Custody

/-- The first machine has all positions, and none has been read. -/
def whole (input : Input) : Custody where
  span id := ⟨0, if id = 0 then input.unread.length else 0⟩
  reads := []

/-- The machine `id` reads its first position. -/
def read (id : Nat) (custody : Custody) : Custody where
  span := Function.update custody.span id (custody.span id).tail
  reads := custody.reads ++ [(custody.span id).start]

/-- The machine `parent` keeps the first `count` of its positions and the machine `child` takes
the rest. -/
def cut (parent child count : Nat) (custody : Custody) : Custody where
  span := Function.update
    (Function.update custody.span parent ((custody.span parent).front count))
    child ((custody.span parent).rest count)
  reads := custody.reads

theorem span_read_self (id : Nat) (custody : Custody) :
    (custody.read id).span id = (custody.span id).tail :=
  Function.update_self ..

theorem span_read_of_ne {id other : Nat} (distinct : other ≠ id) (custody : Custody) :
    (custody.read id).span other = custody.span other :=
  Function.update_of_ne distinct ..

theorem span_cut_parent {parent child : Nat} (distinct : parent ≠ child) (count : Nat)
    (custody : Custody) :
    (custody.cut parent child count).span parent = (custody.span parent).front count := by
  simp only [cut, Function.update_of_ne distinct, Function.update_self]

theorem span_cut_child (parent child count : Nat) (custody : Custody) :
    (custody.cut parent child count).span child = (custody.span parent).rest count :=
  Function.update_self ..

theorem span_cut_of_ne {parent child other : Nat} (notParent : other ≠ parent)
    (notChild : other ≠ child) (count : Nat) (custody : Custody) :
    (custody.cut parent child count).span other = custody.span other := by
  simp only [cut, Function.update_of_ne notChild, Function.update_of_ne notParent]

/-- The unread input of a machine is the input at its span. -/
def Holds (input : Input) (machine : Machine) (custody : Custody) : Prop :=
  machine.input.unread = (custody.span machine.id).bytes input

/-- How custody follows the turns that come up. Whenever a machine reads or forks, its unread
input is the input at its span. -/
inductive Follows (program : Program) (config : Config) (input : Input) :
    List Move → Custody → Prop
  | whole : Follows program config input [] (whole input)
  /-- A machine that executes `,` with input left reads the first position of its span. -/
  | read {past : List Move} {custody : Custody} {move : Move}
      (before : Follows program config input past custody)
      (executed : move.executed? program config = some .input)
      (unread : move.machine.input.unread ≠ []) (holds : custody.Holds input move.machine) :
      Follows program config input (past ++ [move]) (custody.read move.machine.id)
  /-- A machine that forks cuts its span where its input is split. -/
  | forked {past : List Move} {custody : Custody} {move : Move} {child : Nat}
      (before : Follows program config input past custody)
      (executed : move.executed? program config = some .fork)
      (forks : move.child? program config = some child)
      (holds : custody.Holds input move.machine) :
      Follows program config input (past ++ [move])
        (custody.cut move.machine.id child
          (config.inputSplit.kept move.machine.input.unread.length))
  /-- Nothing else changes custody. -/
  | other {past : List Move} {custody : Custody} {move : Move}
      (before : Follows program config input past custody)
      (still : move.executed? program config = some .input → move.machine.input.unread = [])
      (single : move.child? program config = none) :
      Follows program config input (past ++ [move]) custody

/-- What custody accounts for when the machines of a run are those of `pool`. -/
structure Accounts (input : Input) (pool : Pool) (custody : Custody) : Prop where
  /-- The unread input of every machine is the input at its span. -/
  holds : ∀ machine ∈ pool.machines, custody.Holds input machine
  /-- A span reaches nowhere beyond the input. -/
  within : ∀ machine ∈ pool.machines, ∀ position ∈ (custody.span machine.id).positions,
    position < input.unread.length
  /-- Nobody shares a position. -/
  disjoint : pool.machines.Pairwise fun first second =>
    (custody.span first.id).positions.Disjoint (custody.span second.id).positions
  /-- No position is read twice. -/
  once : custody.reads.Nodup
  /-- A position that has been read is nobody's. -/
  spent : ∀ machine ∈ pool.machines,
    custody.reads.Disjoint (custody.span machine.id).positions
  /-- Every position has been read or is left to be read. -/
  total : custody.reads.length +
    (pool.machines.map fun machine => machine.input.unread.length).sum = input.unread.length

/-! ## The positions of the input -/

/-- The positions read and those of all spans together are the positions of the input. -/
structure Guards (input : Input) (machines : List Machine) (custody : Custody) : Prop where
  holds : ∀ machine ∈ machines, custody.Holds input machine
  positions : (custody.reads ++ machines.flatMap fun machine =>
    (custody.span machine.id).positions).Perm (List.range input.unread.length)

namespace Guards

variable {input : Input} {custody : Custody} {machine : Machine} {machines others : List Machine}

theorem perm (guards : custody.Guards input machines) (same : others.Perm machines) :
    custody.Guards input others where
  holds machine machineMem := guards.holds machine (same.mem_iff.mp machineMem)
  positions := ((same.flatMap_right _).append_left _).trans guards.positions

/-- The first machine guards the whole input. -/
theorem start (config : Config) (input : Input) :
    (whole input).Guards input (initial config input).members := by
  constructor
  · intro machine machineMem
    obtain rfl := List.mem_singleton.mp machineMem
    simp [Holds, whole, Machine.initial, Input.Span.bytes]
  · simp [whole, members, initial, Machine.initial, Input.Span.positions, List.range_eq_range']

/-- A machine that keeps its input keeps its span. -/
theorem kept {next : Machine} (guards : custody.Guards input (machine :: others))
    (id_eq : next.id = machine.id) (input_eq : next.input = machine.input) :
    custody.Guards input (next :: others) := by
  obtain ⟨holds, positions⟩ := guards
  rw [List.forall_mem_cons] at holds
  constructor
  · rw [List.forall_mem_cons, Holds, id_eq, input_eq]
    exact holds
  · rw [List.flatMap_cons, id_eq]
    exact positions

/-- The spans of machines that have no part in a change stay as they are. -/
theorem holds_of_span_eq {later : Custody}
    (holds : ∀ other ∈ others, custody.Holds input other)
    (same : ∀ other ∈ others, later.span other.id = custody.span other.id) :
    ∀ other ∈ others, later.Holds input other := by
  intro other otherMem
  rw [Holds, same other otherMem]
  exact holds other otherMem

/-- A machine that reads gives up its first position. -/
theorem read {next : Machine} {byte : UInt8} {later : List UInt8}
    (guards : custody.Guards input (machine :: others))
    (strangers : ∀ other ∈ others, other.id ≠ machine.id)
    (unread : machine.input.unread = byte :: later)
    (id_eq : next.id = machine.id) (input_eq : next.input = machine.input.read.2) :
    (custody.read machine.id).Guards input (next :: others) := by
  obtain ⟨holds, positions⟩ := guards
  rw [List.forall_mem_cons] at holds
  have found : (custody.span machine.id).bytes input = byte :: later := holds.1.symm.trans unread
  have own : (custody.read machine.id).span next.id = (custody.span machine.id).tail := by
    rw [id_eq, span_read_self]
  have same : ∀ other ∈ others,
      (custody.read machine.id).span other.id = custody.span other.id :=
    fun other otherMem => span_read_of_ne (strangers other otherMem) custody
  constructor
  · rw [List.forall_mem_cons]
    constructor
    · have left : machine.input.read.2.unread = later := by
        rcases input : machine.input with ⟨bytes⟩
        rw [input] at unread
        cases unread
        rfl
      rw [Holds, own, input_eq, left, Input.Span.bytes_tail found]
    · exact holds_of_span_eq holds.2 same
  · rw [List.flatMap_cons, Input.Span.positions_eq_cons found] at positions
    rw [List.flatMap_cons, own, List.flatMap_congr fun other otherMem =>
      congrArg Input.Span.positions (same other otherMem)]
    simpa [Custody.read] using positions

/-- A machine that forks keeps the front of its span, and its child has the rest. -/
theorem cut {child : Nat} {split : Input.Split}
    (guards : custody.Guards input (machine :: others))
    (strangers : ∀ other ∈ others, other.id ≠ machine.id)
    (unborn : ∀ other ∈ machine :: others, other.id ≠ child) :
    (custody.cut machine.id child (split.kept machine.input.unread.length)).Guards input
      ((machine.fork child split).1 :: (machine.fork child split).2 :: others) := by
  obtain ⟨holds, positions⟩ := guards
  rw [List.forall_mem_cons] at holds unborn
  generalize keptEq : split.kept machine.input.unread.length = kept
  have found : machine.input.unread = (custody.span machine.id).bytes input := holds.1
  have within : kept ≤ (custody.span machine.id).length := by
    apply Nat.le_trans (keptEq ▸ Input.Split.kept_le split _)
    rw [found]
    exact Input.Span.length_bytes_le _ _
  have parentSpan := span_cut_parent unborn.1 kept custody
  have childSpan := span_cut_child machine.id child kept custody
  have same : ∀ other ∈ others,
      (custody.cut machine.id child kept).span other.id = custody.span other.id :=
    fun other otherMem =>
      span_cut_of_ne (strangers other otherMem) (unborn.2 other otherMem) kept custody
  have parentId : (machine.fork child split).1.id = machine.id := rfl
  have childId : (machine.fork child split).2.id = child := rfl
  constructor
  · rw [List.forall_mem_cons, List.forall_mem_cons]
    constructor
    · rw [Holds, parentId, parentSpan, Input.Span.bytes_front within, ← found, ← keptEq]
      rfl
    constructor
    · rw [Holds, childId, childSpan, Input.Span.bytes_rest, ← found, ← keptEq]
      rfl
    · exact holds_of_span_eq holds.2 same
  · rw [List.flatMap_cons, ← Input.Span.positions_front_append_rest within,
      List.append_assoc] at positions
    rw [List.flatMap_cons, List.flatMap_cons, parentId, childId, parentSpan, childSpan,
      List.flatMap_congr fun other otherMem =>
        congrArg Input.Span.positions (same other otherMem)]
    exact positions

/-- What is guarded is accounted for. -/
theorem accounts {pool : Pool} (guards : custody.Guards input pool.members) :
    custody.Accounts input pool := by
  obtain ⟨holds, positions⟩ := guards.perm pool.machines_perm_members
  have nodup := positions.nodup_iff.mpr List.nodup_range
  have within : ∀ machine ∈ pool.machines,
      ∀ position ∈ (custody.span machine.id).positions, position < input.unread.length := by
    intro machine machineMem position positionMem
    apply List.mem_range.mp
    apply positions.mem_iff.mp
    exact List.mem_append_right _ (List.mem_flatMap.mpr ⟨machine, machineMem, positionMem⟩)
  rw [List.nodup_append'] at nodup
  obtain ⟨once, spans, apart⟩ := nodup
  constructor
  · exact holds
  · exact within
  · exact (List.nodup_flatMap.mp spans).2
  · exact once
  · intro machine machineMem position read held
    exact apart read (List.mem_flatMap.mpr ⟨machine, machineMem, held⟩)
  · have lengths := positions.length_eq
    rw [List.length_append, List.length_flatMap, List.length_range] at lengths
    rw [← lengths, List.map_congr_left fun machine machineMem => ?_]
    rw [holds machine machineMem, Input.Span.length_bytes (within machine machineMem)]

end Guards

/-! ## Following the turns -/

variable {program : Program} {config : Config} {input : Input} {custody : Custody}
  {past : List Move} {machine : Machine} {others : List Machine} {round : Round}

/-- A machine that reads nothing and does not fork keeps its span. -/
theorem Follows.keep {next : Machine} (before : Follows program config input past custody)
    (guards : custody.Guards input (machine :: others))
    (still : Move.executed? program config ⟨machine, round⟩ = some .input →
      machine.input.unread = [])
    (single : Move.child? program config ⟨machine, round⟩ = none)
    (id_eq : next.id = machine.id) (input_eq : next.input = machine.input) :
    ∃ later, Follows program config input (past ++ [⟨machine, round⟩]) later ∧
      later.Guards input (next :: others) :=
  ⟨custody, .other before still single, guards.kept id_eq input_eq⟩

/-- A machine that has executed an instruction other than a `fork` has read its first position, if
the instruction is `,` and there was one. -/
theorem Follows.advance {instruction : Instruction} {next : Machine}
    (before : Follows program config input past custody)
    (guards : custody.Guards input (machine :: others))
    (strangers : ∀ other ∈ others, other.id ≠ machine.id)
    (executed : Move.executed? program config ⟨machine, round⟩ = some instruction)
    (single : Move.child? program config ⟨machine, round⟩ = none)
    (id_eq : next.id = machine.id)
    (input_eq : next.input =
      if instruction = .input then machine.input.read.2 else machine.input) :
    ∃ later, Follows program config input (past ++ [⟨machine, round⟩]) later ∧
      later.Guards input (next :: others) := by
  by_cases reading : instruction = .input
  · rw [if_pos reading] at input_eq
    rw [reading] at executed
    cases unread : machine.input.unread with
    | nil =>
        have unchanged : machine.input.read.2 = machine.input := by
          rcases held : machine.input with ⟨bytes⟩
          rw [held] at unread
          cases unread
          rfl
        exact before.keep guards (fun _ => unread) single id_eq (input_eq.trans unchanged)
    | cons byte later =>
        have holds : custody.Holds input machine := guards.holds machine List.mem_cons_self
        have nonempty : machine.input.unread ≠ [] := unread ▸ List.cons_ne_nil byte later
        exact ⟨custody.read machine.id, .read before executed nonempty holds,
          guards.read strangers unread id_eq input_eq⟩
  · rw [if_neg reading] at input_eq
    apply before.keep guards _ single id_eq input_eq
    intro isInput
    rw [executed] at isInput
    exact absurd (Option.some.inj isInput) reading

/-- Whatever a turn leaves in the place of a machine, custody follows and stays complete. -/
theorem Follows.turn {heirs : List Machine}
    (before : Follows program config input past custody)
    (guards : custody.Guards input (machine :: round.members))
    (strangers : ∀ other ∈ round.members, other.id ≠ machine.id)
    (known : ∀ other ∈ machine :: round.members, other.id ≠ round.ledger.nextId)
    (leaves : Round.Leaves program config machine round
      (round.turn program config machine) heirs) :
    ∃ later, Follows program config input (past ++ [⟨machine, round⟩]) later ∧
      later.Guards input (heirs ++ round.members) := by
  obtain ⟨become, _, nextId⟩ := leaves
  generalize ended : Round.fault? (round.turn program config machine) = fault? at become
  have idle {fault : Fault} (faulted : fault? = some fault) :
      Move.executed? program config ⟨machine, round⟩ = some .input →
        machine.input.unread = [] := by
    rw [Move.executed?_eq_none (ended.trans faulted)]
    intro executed
    contradiction
  cases become with
  | rested halted =>
      have idle : Move.executed? program config ⟨machine, round⟩ = none := by
        simp [Move.executed?, halted]
      exact before.keep guards (by simp [idle]) (Move.child?_eq_none nextId) rfl rfl
  | stopped pending =>
      exact before.keep guards (idle rfl) (Move.child?_eq_none nextId) rfl rfl
  | limited pending reached =>
      exact before.keep guards (idle rfl) (Move.child?_eq_none nextId) rfl rfl
  | rejected live found admitted =>
      exact before.keep guards (idle rfl) (Move.child?_eq_none nextId) rfl rfl
  | ended live missing =>
      have idle := (Move.executed?_eq_instruction? ended live).trans missing
      exact before.keep guards (by simp [idle]) (Move.child?_eq_none nextId) rfl rfl
  | @advanced instruction next event? live found plain admitted performed =>
      have kin := (Machine.perform_keeps program config.machine.overflow instruction
        machine.count).1
      have input_eq := Machine.perform_input program config.machine.overflow instruction
        machine.count
      rw [performed] at kin input_eq
      have executed := (Move.executed?_eq_instruction? ended live).trans found
      exact before.advance guards strangers executed (Move.child?_eq_none nextId)
        (congrArg Machine.Kin.id kin) input_eq
  | refused live found admitted =>
      have executed := (Move.executed?_eq_instruction? ended live).trans found
      exact before.keep guards (by simp [executed]) (Move.child?_eq_none nextId) rfl rfl
  | forked live found admitted =>
      have executed := (Move.executed?_eq_instruction? ended live).trans found
      have holds : custody.Holds input machine := guards.holds machine List.mem_cons_self
      have counted : custody.Guards input (machine.count :: round.members) :=
        guards.kept rfl rfl
      rw [List.forall_mem_cons] at known
      exact ⟨_, .forked before executed (Move.child?_eq_some nextId) holds,
        counted.cut strangers (List.forall_mem_cons.mpr known)⟩

end Custody

/-- Custody can be kept from turn to turn. -/
theorem custody_recorded (program : Program) (config : Config) (input : Input) :
    Recorded program config fun past pool => pool.ledger.Tells pool.members ∧
      ∃ custody : Custody, custody.Follows program config input past ∧
        custody.Guards input pool.members where
  turn {past machine round} before := by
    obtain ⟨tells, custody, follows, guards⟩ := before
    have putBack := Round.members_toPool_putBack machine round
    have turned := Round.turned program config machine round
    obtain ⟨heirs, leaves⟩ := turned.leaves
    have members := (Round.members_toPool _).trans leaves.members
    have together : round.ledger.Tells (machine :: round.members) := tells.perm putBack.symm
    obtain ⟨strangers, known⟩ := together.distinct
    obtain ⟨later, followsOn, guardsOn⟩ :=
      follows.turn (guards.perm putBack.symm) strangers known leaves
    exact ⟨(tells_kept program config).turn turned tells, later, followsOn,
      guardsOn.perm members⟩
  retire {past pool} before := by
    obtain ⟨tells, custody, follows, guards⟩ := before
    exact ⟨(tells_kept program config).retire tells, custody, follows,
      guards.perm (members_retireHalted pool)⟩

/-- Whatever rounds and runs have led to a pool, every machine there has been can be given a span
of the input, which is all that it has left to read, such that no two spans overlap, whoever reads
takes the first position of its span, no position is read twice, and the positions read and those
left to be read are as many as the input has. -/
theorem exists_custody {program : Program} {config : Config} {input : Input} {past : List Pool}
    {pool : Pool} (history : History program config input past pool) :
    ∃ custody : Custody,
      custody.Follows program config input (past.flatMap (moves program config)) ∧
        custody.Accounts input pool := by
  obtain ⟨_, custody, follows, guards⟩ := (custody_recorded program config input).of_history
    ⟨tells_initial config input, .whole input, .whole, .start config input⟩ history
  exact ⟨custody, follows, guards.accounts⟩

/-- The program that reads a byte, forks and reads another. -/
def readFork : Program where
  instructions := #[.input, .fork, .input]
  offsets := #[0, 1, 5]
  pairing := ⟨#[none, none, none]⟩
  paired := rfl

/-- Of four bytes, the first machine reads two and has one left, and the machine that it forks
off reads the last. -/
theorem readFork_exists_custody :
    ∃ past pool, History readFork {} ⟨[11, 22, 33, 44]⟩ past pool ∧
      (pool.members.map fun machine => machine.input.unread) = [[33], []] ∧
      ∃ custody : Custody,
        custody.Follows readFork {} ⟨[11, 22, 33, 44]⟩ (past.flatMap (moves readFork {})) ∧
        custody.Accounts ⟨[11, 22, 33, 44]⟩ pool ∧ custody.reads.length = 3 := by
  obtain ⟨past, pool, history, left⟩ : ∃ past pool,
      History readFork {} ⟨[11, 22, 33, 44]⟩ past pool ∧
      (pool.members.map fun machine => machine.input.unread) = [[33], []] :=
    ⟨_, _, .sweep (.sweep (.sweep .initial)), rfl⟩
  obtain ⟨custody, follows, accounts⟩ := exists_custody history
  refine ⟨past, pool, history, left, custody, follows, accounts, ?_⟩
  have lengths : (pool.members.map fun machine => machine.input.unread.length) = [1, 0] := by
    have lengths := congrArg (List.map List.length) left
    rwa [List.map_map] at lengths
  have total := accounts.total
  rw [(pool.machines_perm_members.map _).sum_nat, lengths] at total
  exact Nat.add_right_cancel total

end Pool

end ForkTape

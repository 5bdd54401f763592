import ForkTape.Proofs.Binary.Varint
import ForkTape.Report.Binary

/-!
# Reports delimit themselves

The binary form of a report tells by itself where it ends. It is read back whatever follows it,
and no part of it that stops short can be read at all. Hence different reports have different
forms, and no form begins another (`Report.toBytes_delimits`).

All this is said of reports whose numbers are within the ranges that the binary form has for them
(`Report.Fits`). Lengths of lists are among these numbers.
-/

namespace ForkTape

open Binary (Format)

namespace Binary.Format

variable {α : Type}

theorem delimits_word {id : Nat} (within : id < 2 ^ 32) : word.Delimits id :=
  Varint.delimits_format within

theorem delimits_long {number : Nat} (within : number < 2 ^ 64) : long.Delimits number :=
  Varint.delimits_format within

theorem delimits_list {format : Format α} {values : List α} (within : values.length < 2 ^ 64)
    (delimits : ∀ value ∈ values, format.Delimits value) : format.list.Delimits values :=
  delimits_listOf (delimits_long within) delimits

end Binary.Format

/-- The numbers of a result are within their ranges. -/
structure Machine.Result.Fits (result : Machine.Result) : Prop where
  id : result.id < 2 ^ 32
  parent : ∀ parent ∈ result.parent, parent < 2 ^ 32
  children : ∀ child ∈ result.children, child < 2 ^ 32
  childCount : result.children.length < 2 ^ 64
  outputLength : result.output.length < 2 ^ 64
  dataPointer : result.dataPointer < 2 ^ 64
  tapeLength : result.tape.length < 2 ^ 64
  steps : result.steps < 2 ^ 64

/-- The numbers of a refusal are within their ranges. -/
structure Refusal.Fits (refusal : Refusal) : Prop where
  machine : refusal.machine < 2 ^ 32
  instructionPointer : refusal.instructionPointer < 2 ^ 64
  live : refusal.live < 2 ^ 64
  budget : refusal.budget < 2 ^ 64

/-- The numbers of a report are within their ranges. -/
structure Report.Fits (report : Report) : Prop where
  results : ∀ result ∈ report.results, result.Fits
  resultCount : report.results.length < 2 ^ 64
  refusals : ∀ refusal ∈ report.refusals, refusal.Fits
  refusalCount : report.refusals.length < 2 ^ 64
  totalSteps : report.totalSteps < 2 ^ 64

open Binary.Format

theorem Machine.Result.delimits_format {result : Machine.Result} (fits : result.Fits) :
    Machine.Result.format.Delimits result := by
  apply delimits_map _ rfl
  apply delimits_pair (delimits_word fits.id)
  apply delimits_pair (delimits_option fun parent found => delimits_word (fits.parent parent found))
  apply delimits_pair (delimits_list fits.childCount fun child childMem =>
    delimits_word (fits.children child childMem))
  apply delimits_pair (delimits_list fits.outputLength fun value _ => delimits_byte value)
  apply delimits_pair (delimits_long fits.dataPointer)
  apply delimits_pair (delimits_list fits.tapeLength fun value _ => delimits_byte value)
  exact delimits_pair (delimits_long fits.steps) (delimits_bool _)

theorem Refusal.delimits_format {refusal : Refusal} (fits : refusal.Fits) :
    Refusal.format.Delimits refusal := by
  apply delimits_map _ rfl
  apply delimits_pair (delimits_word fits.machine)
  apply delimits_pair (delimits_long fits.instructionPointer)
  exact delimits_pair (delimits_long fits.live) (delimits_long fits.budget)

namespace Report

variable {report : Report}

theorem delimits_format (fits : report.Fits) : format.Delimits report := by
  apply delimits_map _ rfl
  apply delimits_pair (delimits_list fits.resultCount fun result resultMem =>
    Machine.Result.delimits_format (fits.results result resultMem))
  apply delimits_pair (delimits_list fits.refusalCount fun refusal refusalMem =>
    Refusal.delimits_format (fits.refusals refusal refusalMem))
  exact delimits_long fits.totalSteps

/-- The report at the front of its own bytes is that report. -/
theorem ofBytes_toBytes_append (fits : report.Fits) (more : List UInt8) :
    ofBytes (report.toBytes ++ more) = .ok report := by
  rw [ofBytes, toBytes, (delimits_format fits).whole more]

/-- A report whose last bytes are missing ends unexpectedly. -/
theorem ofBytes_of_prefix (fits : report.Fits) {part : List UInt8}
    (begins : part <+: report.toBytes) (short : part ≠ report.toBytes) :
    ofBytes part = .error .unexpectedEnd := by
  obtain ⟨rest, goesOn⟩ := begins
  cases rest with
  | nil => exact absurd (part.append_nil ▸ goesOn) short
  | cons byte rest => rw [ofBytes, (delimits_format fits).cut goesOn]

/-- A report that fits the binary form is read back from its bytes whatever follows them, and no
proper front of its bytes can be read. So no other report has the same bytes, and none has bytes
that begin with them. -/
theorem toBytes_delimits (fits : report.Fits) :
    (∀ more, ofBytes (report.toBytes ++ more) = .ok report) ∧
      (∀ part, part <+: report.toBytes → part ≠ report.toBytes →
        ofBytes part = .error .unexpectedEnd) ∧
      (∀ other : Report, other.Fits → other.toBytes = report.toBytes → other = report) ∧
      ∀ other : Report, other.Fits → report.toBytes <+: other.toBytes → other = report := by
  have unique : ∀ other : Report, other.Fits → report.toBytes <+: other.toBytes →
      other = report := by
    rintro other otherFits ⟨more, same⟩
    have read := ofBytes_toBytes_append otherFits []
    rw [List.append_nil, ← same, ofBytes_toBytes_append fits] at read
    exact (Except.ok.inj read).symm
  refine ⟨ofBytes_toBytes_append fits, fun part => ofBytes_of_prefix fits, ?_, unique⟩
  intro other otherFits same
  exact unique other otherFits (same ▸ List.prefix_refl _)

/-- A report in which every kind of number is at the end of its range. -/
def utmost : Report where
  results :=
    [{ id := 0, parent := none, children := [2 ^ 32 - 1], output := [104, 105], dataPointer := 0
       tape := [1], steps := 2 ^ 64 - 1, halted := false },
     { id := 2 ^ 32 - 1, parent := some 0, children := [], output := [], dataPointer := 2
       tape := [0, 0, 255], steps := 128, halted := true }]
  refusals := [⟨2 ^ 32 - 1, 127, 2, 2 ^ 64 - 1⟩]
  totalSteps := 2 ^ 64 - 1

/-- The bytes of such a report are read back with another one behind them, and not without the last
of them. -/
theorem utmost_delimits : utmost.Fits ∧ utmost.toBytes.length = 71 ∧
    ofBytes (utmost.toBytes ++ [0]) = .ok utmost ∧
    ofBytes utmost.toBytes.dropLast = .error .unexpectedEnd := by
  have fits : utmost.Fits := by
    refine ⟨?_, by decide, ?_, by decide, by decide⟩
    · simp only [utmost, List.forall_mem_cons]
      exact ⟨⟨by decide, by simp, by simp, by decide, by decide, by decide, by decide, by decide⟩,
        ⟨by decide, by simp, by simp, by decide, by decide, by decide, by decide, by decide⟩,
        by simp⟩
    · simp only [utmost, List.forall_mem_singleton]
      exact ⟨by decide, by decide, by decide, by decide⟩
  have size : utmost.toBytes.length = 71 := by decide +kernel
  obtain ⟨whole, cut, _⟩ := toBytes_delimits fits
  refine ⟨fits, size, whole [0], cut _ (List.dropLast_prefix _) ?_⟩
  intro same
  have shorter := congrArg List.length same
  rw [List.length_dropLast, size] at shorter
  contradiction

end Report

end ForkTape

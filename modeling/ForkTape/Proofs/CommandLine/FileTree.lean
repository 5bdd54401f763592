import ForkTape.CommandLine.FileTree
import Mathlib.Data.String.Basic

/-!
# Paths, and files that are read back

The steps of a path are what stands between its slashes (`Path.steps_eq`).

A file that is put into a tree stands where no directory stands, so every directory on the way to
it is still there and a path leads where it led before. Hence a file that has been written is read
back from the path it was written to (`FileTree.read_of_write`).

A device keeps nothing that could be read. Where a path leads to one, writing there succeeds or
fails, but does not change what stands in the tree.
-/

namespace ForkTape.CommandLine

/-! ## Steps -/

namespace Path

/-- Behind a slash, the place before it is one byte back. -/
theorem unoffsetBy_next {text : String} {place : String.Pos.Raw} (isSlash : place.get text = '/') :
    (place.next text).unoffsetBy (String.Pos.Raw.next "/" 0) = place := by
  have width : String.Pos.Raw.next "/" 0 = ⟨1⟩ := by decide +kernel
  rw [width, String.Pos.Raw.next, isSlash]
  rfl

/-- A text is split at the text of one slash as it is at the slashes among its characters. -/
theorem splitOnAux_slash (text : String) (first place : String.Pos.Raw) (found : List String) :
    text.splitOnAux "/" first place 0 found = text.splitAux (· == '/') first place found := by
  have slash : String.Pos.Raw.get "/" 0 = '/' := by decide +kernel
  have passed : String.Pos.Raw.atEnd "/" (String.Pos.Raw.next "/" 0) = true := by decide +kernel
  fun_induction String.splitAux text (· == '/') first place found with
  | case1 first place found ended => rw [String.splitOnAux, if_pos ended]
  | case2 first place found more _ isSlash next ih =>
      rw [String.splitOnAux, if_neg more, slash, if_pos isSlash, if_pos passed,
        unoffsetBy_next (eq_of_beq isSlash)]
      exact ih
  | case3 first place found more _ other ih =>
      rw [String.splitOnAux, if_neg more, slash, if_neg other]
      exact ih

/-- The steps of a path are what stands between its slashes. -/
theorem steps_eq (path : String) :
    steps path = (path.toList.splitOnP (· == '/')).map String.ofList := by
  rw [← String.splitToList_of_valid, String.splitToList, ← splitOnAux_slash]
  rfl

end Path

namespace FileTree

/-! ## Files -/

variable {tree after : FileTree} {place directory : Place} {bytes : List UInt8}

/-- A path that does not lead to a device. Whatever is written there goes to a file. -/
def NamesFile (tree : FileTree) (path : String) : Prop :=
  ∀ place device, tree.destination path = .ok place → tree.node? place ≠ some (.device device)

theorem node?_put_self : (tree.put place bytes).node? place = some (.file bytes) := by
  simp [node?, put]

theorem lookup_filter_ne (nodes : List (Place × Node)) (elsewhere : directory ≠ place) :
    (nodes.filter fun (other, _) => other != place).lookup directory = nodes.lookup directory := by
  induction nodes with
  | nil => rfl
  | cons entry nodes ih =>
      rcases entry with ⟨other, node⟩
      by_cases same : other = place
      · subst same
        simp [List.lookup_cons, ih, beq_eq_false_iff_ne.mpr elsewhere]
      · simp [List.lookup_cons, ih, same]

/-- What was on the way to something still is. -/
theorem leadsOn_put (leadsOn : tree.leadsOn directory = true) :
    (tree.put place bytes).leadsOn directory = true := by
  rw [FileTree.leadsOn, Bool.or_eq_true, List.any_eq_true] at leadsOn ⊢
  rcases leadsOn with working | ⟨⟨further, node⟩, entryMem, isSuffix⟩
  · exact .inl working
  · right
    by_cases same : further = place
    · subst same
      exact ⟨_, List.mem_cons_self, isSuffix⟩
    · refine ⟨_, List.mem_cons_of_mem _ (List.mem_filter.mpr ⟨entryMem, ?_⟩), isSuffix⟩
      exact bne_iff_ne.mpr same

/-- Directories stay where a file is put where none of them is. -/
theorem node?_put_of_directory (free : tree.node? place ≠ some .directory)
    (found : tree.node? directory = some .directory) :
    (tree.put place bytes).node? directory = some .directory := by
  have elsewhere : directory ≠ place := by
    rintro rfl
    exact free found
  have kept : (tree.put place bytes).nodes.lookup directory = tree.nodes.lookup directory := by
    rw [put, List.lookup_cons, beq_eq_false_iff_ne.mpr elsewhere]
    exact lookup_filter_ne tree.nodes elsewhere
  rw [node?] at found ⊢
  rw [kept]
  cases looked : tree.nodes.lookup directory with
  | some node => rwa [looked] at found
  | none =>
      rw [looked] at found
      simp only at found ⊢
      split at found
      · rename_i leadsOn
        rw [if_pos (leadsOn_put leadsOn)]
      · contradiction

/-- A step that could be taken still can be. -/
theorem take_put {step : String} {next : Place} (free : tree.node? place ≠ some .directory)
    (taken : tree.take directory step = .ok next) :
    (tree.put place bytes).take directory step = .ok next := by
  rw [take] at taken
  split at taken
  · contradiction
  · rename_i found
    rw [take, node?_put_of_directory free found]
    exact taken
  · contradiction

theorem foldlM_take_put {steps : List String} {start last : Place}
    (free : tree.node? place ≠ some .directory) (walked : steps.foldlM tree.take start = .ok last) :
    steps.foldlM (tree.put place bytes).take start = .ok last := by
  induction steps generalizing start with
  | nil => exact walked
  | cons step steps ih =>
      rw [List.foldlM_cons] at walked ⊢
      cases taken : tree.take start step with
      | error error =>
          rw [taken] at walked
          contradiction
      | ok next =>
          rw [taken] at walked
          rw [take_put free taken]
          exact ih walked

/-- A path still leads where it led. -/
theorem follow_put {path : String} {steps : List String} {last : Place}
    (free : tree.node? place ≠ some .directory) (followed : tree.follow path steps = .ok last) :
    (tree.put place bytes).follow path steps = .ok last := by
  rw [follow] at followed ⊢
  split at followed
  · contradiction
  · rename_i named
    rw [if_neg named]
    split at followed
    · contradiction
    · rename_i short
      rw [if_neg short]
      exact foldlM_take_put free followed

/-- A path that names a place for a file leads there by its steps. -/
theorem follow_of_destination {path : String} (named : tree.destination path = .ok place) :
    tree.follow path (Path.steps path) = .ok place := by
  rw [destination] at named
  split at named
  · cases followed : tree.follow path (Path.stepsToLast path) <;> rw [followed] at named <;>
      contradiction
  · exact named

/-- What writing does to a tree. -/
theorem write_cases {path : String} (written : tree.write path bytes = .ok after) :
    ∃ place, tree.destination path = .ok place ∧
      ((∃ device, tree.node? place = some (.device device) ∧
          tree.send device bytes = .ok after) ∨
        tree.node? place ≠ some .directory ∧ after = tree.put place bytes) := by
  rw [write] at written
  cases named : tree.destination path with
  | error error =>
      rw [named] at written
      contradiction
  | ok place =>
      refine ⟨place, rfl, ?_⟩
      simp only [named, bind, Except.bind] at written
      split at written
      · contradiction
      · rename_i device found
        exact .inl ⟨device, found, written⟩
      · rename_i stored found
        exact .inr ⟨by simp [found], (Except.ok.inj written).symm⟩
      · rename_i found
        exact .inr ⟨by simp [found], (Except.ok.inj written).symm⟩

/-- A file that has been written is read back. -/
theorem read_of_write {path : String} (file : tree.NamesFile path)
    (written : tree.write path bytes = .ok after) : after.read path = .ok bytes := by
  obtain ⟨place, named, ⟨device, found, _⟩ | ⟨free, rfl⟩⟩ := write_cases written
  · exact absurd found (file place device named)
  · rw [read, follow_put free (follow_of_destination named)]
    simp only [bind, Except.bind, node?_put_self]

/-- Nothing is shown on the screen when a file is written. -/
theorem shown_of_write {path : String} (file : tree.NamesFile path)
    (written : tree.write path bytes = .ok after) : after.shown = tree.shown := by
  obtain ⟨place, named, ⟨device, found, _⟩ | ⟨_, rfl⟩⟩ := write_cases written
  · exact absurd found (file place device named)
  · rfl

/-- Whether a file can be written, and why not, does not depend on what is written. -/
theorem map_write (path : String) (bytes other : List UInt8) :
    (tree.write path bytes).map (fun _ => ()) = (tree.write path other).map fun _ => () := by
  simp only [write, bind, Except.bind]
  cases tree.destination path with
  | error error => rfl
  | ok place =>
      dsimp only
      split
      · rfl
      · rename_i device found
        cases device <;> rfl
      · rfl
      · rfl

end FileTree

end ForkTape.CommandLine

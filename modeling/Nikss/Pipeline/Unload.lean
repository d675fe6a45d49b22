import Nikss.Kernel.Calls

/-! # Unloading a pipeline

`nikss_pipeline_unload` removes the pipeline's directory of the BPF filesystem with
`nftw`, depth first (`FTW_DEPTH`: a directory after its contents), calling `remove_file`
on every entry. `remove_file` ignores what `remove` answers and returns 0, so `nftw` never
stops early: a removal the kernel refuses leaves its entry in place and the walk goes on.

The model has no directories (`Path` names pinned files only). What `nftw` finds below the
pipeline's directory is an argument, as the directory stream of the object listing is: the
entries in the order it visits them, or the `errno` of a directory it cannot walk. The two
directories (`maps` and the pipeline's own) are visited like files; their removal meets an
outcome and changes nothing the model represents.

The walk of one removal after another is given in closed form (`nftwLoop_removeFile`):
the pins lose exactly the files whose own removal met no failure (`removedFiles`), and
nothing but the pins, the outcome sequence and `errno` changes.
-/

namespace Nikss

/-- The pipeline whose namespace a path belongs to; libbpf's pin root belongs to none. -/
def Path.pipeline : Path → Option Nat
  | .prog pipeline _ | .map pipeline _ => some pipeline
  | .root _ => none

/-- An entry `nftw` hands its callback below a pipeline's directory: a program, a map of
the `maps` subdirectory, or one of the two directories, each after its contents. -/
inductive FtwEntry
  | prog (name : String)
  | map (name : String)
  | directory
  deriving DecidableEq, Repr

/-- The pinned file an entry of the directory of pipeline `ctx` is; a directory is none. -/
def FtwEntry.path (ctx : NikssContext) : FtwEntry → Option Path
  | .prog name => some (buildEbpfProgFilename ctx name)
  | .map name => some (buildEbpfMapFilename ctx name)
  | .directory => none

/-- `remove(fpath)`: unlink a pinned file (`some path`), or remove a directory (`none`),
which the model does not represent. -/
def remove (fpath : Option Path) : Sys Int := do
  match ← nextOutcome with
  | some e => fail e
  | none =>
    match fpath with
    | none => pure 0
    | some path =>
      let w ← get
      match w.pins path with
      | none => fail ENOENT
      | some _ => do
        set { w with pins := Function.update w.pins path none }
        pure 0

/-- `remove_file`, the callback of `nftw`: ignore any error and continue. -/
def removeFile (fpath : Option Path) : Sys Int := do
  let _ ← remove fpath
  pure 0

/-- The walk of `nftw` over the entries it visits, in order: it stops at the first nonzero
answer of the callback and returns it, and returns 0 once every entry is visited. -/
def nftwLoop (fn : Option Path → Sys Int) : List (Option Path) → Sys Int
  | [] => pure 0
  | fpath :: fpaths => do
    let ret ← fn fpath
    if ret ≠ 0 then return ret
    nftwLoop fn fpaths

/-- `nftw` on a directory whose walk is `walk`: the entries in the order it visits them,
or the `errno` of a directory it cannot walk, when it returns -1. -/
def nftw (walk : Except Nat (List (Option Path))) (fn : Option Path → Sys Int) : Sys Int :=
  match walk with
  | .error e => do
    modify fun w => { w with errno := e }
    pure (-1)
  | .ok fpaths => nftwLoop fn fpaths

/-- `remove_pipeline_directory`: `walk` is what `nftw` finds below the directory of the
pipeline `ctx`. -/
def removePipelineDirectory (ctx : NikssContext) (walk : Except Nat (List FtwEntry)) :
    Sys Int := do
  if (← nftw (walk.map (·.map (FtwEntry.path ctx))) removeFile) ≠ 0 then
    return (← getErrno)
  pure NO_ERROR

/-- `nikss_pipeline_unload`. -/
def nikssPipelineUnload (ctx : NikssContext) (walk : Except Nat (List FtwEntry)) : Sys Int :=
  removePipelineDirectory ctx walk

/-! ## The walk in closed form -/

/-- The files of a walk whose own removal meets no failure, the removal of the `i`-th
entry meeting the `i`-th outcome. -/
def removedFiles : List (Option Path) → List (Option ℕ+) → List Path
  | [], _ => []
  | fpath :: fpaths, outcomes =>
    match outcomes.head?.join, fpath with
    | none, some path => path :: removedFiles fpaths outcomes.tail
    | _, _ => removedFiles fpaths outcomes.tail

/-- The pins once the files of `removed` are unlinked. -/
def unpinAll (removed : List Path) (pins : Path → Option ℕ+) : Path → Option ℕ+ :=
  fun path => if path ∈ removed then none else pins path

@[simp] theorem unpinAll_nil (pins : Path → Option ℕ+) : unpinAll [] pins = pins := rfl

theorem unpinAll_singleton (path : Path) (pins : Path → Option ℕ+) :
    unpinAll [path] pins = Function.update pins path none := by
  funext other
  by_cases same : other = path
  · subst same
    simp [unpinAll]
  · simp [unpinAll, same, Function.update_noteq]

/-- One removal meets the next outcome and unlinks its file when that outcome is no
failure; it changes nothing but the pins, the outcome sequence and `errno`. -/
theorem removeFile_apply (fpath : Option Path) (w : World) :
    ∃ errno, removeFile fpath w = some (0, { w with
      pins := unpinAll (removedFiles [fpath] w.outcomes) w.pins
      outcomes := w.outcomes.tail, errno }) := by
  simp only [removeFile, remove, Sys.bind_apply, nextOutcome_apply, Option.some_bind, removedFiles]
  rcases w.outcomes.head?.join with _ | e
  · rcases fpath with _ | path
    · exact ⟨w.errno, rfl⟩
    · simp only [Sys.get_apply, Option.some_bind, unpinAll_singleton]
      cases pinned : w.pins path
      · have unchanged : Function.update w.pins path none = w.pins := pinned ▸ Function.update_eq_self _ _
        exact ⟨ENOENT, by simp [fail, pinned, unchanged]⟩
      · exact ⟨w.errno, by simp [pinned]⟩
  · exact ⟨e, by simp [fail]⟩

theorem removedFiles_cons (fpath : Option Path) (fpaths : List (Option Path))
    (outcomes : List (Option ℕ+)) :
    removedFiles (fpath :: fpaths) outcomes =
      removedFiles [fpath] outcomes ++ removedFiles fpaths outcomes.tail := by
  simp only [removedFiles]
  split <;> rfl

theorem unpinAll_append (first second : List Path) (pins : Path → Option ℕ+) :
    unpinAll (first ++ second) pins = unpinAll second (unpinAll first pins) := by
  funext path
  simp only [unpinAll, List.mem_append]
  split_ifs <;> simp_all

/-- The walk of `remove_file` over a list of entries never stops: it answers 0, unlinks
exactly the files whose own removal met no failure, uses one outcome an entry, and changes
nothing else but `errno`. -/
theorem nftwLoop_removeFile :
    ∀ (fpaths : List (Option Path)) (w : World), ∃ errno,
      nftwLoop removeFile fpaths w = some (0, { w with
        pins := unpinAll (removedFiles fpaths w.outcomes) w.pins
        outcomes := w.outcomes.drop fpaths.length, errno })
  | [], w => ⟨w.errno, rfl⟩
  | fpath :: fpaths, w => by
    obtain ⟨errno, removed⟩ := removeFile_apply fpath w
    obtain ⟨errno', rest⟩ := nftwLoop_removeFile fpaths _
    refine ⟨errno', ?_⟩
    simp only [nftwLoop, Sys.bind_apply, removed, Option.some_bind, ne_eq, not_true_eq_false,
      if_false, Sys.pure_apply]
    rw [rest, removedFiles_cons fpath fpaths, unpinAll_append, List.length_cons, ← List.drop_tail]

/-- A file is removed exactly when it is the `i`-th entry of the walk and the `i`-th
outcome is no failure. -/
theorem mem_removedFiles {path : Path} :
    ∀ {fpaths : List (Option Path)} {outcomes : List (Option ℕ+)},
      path ∈ removedFiles fpaths outcomes ↔
        ∃ i : Nat, fpaths[i]? = some (some path) ∧ outcomes[i]?.join = none
  | [], _ => by simp [removedFiles]
  | fpath :: fpaths, outcomes => by
    have first : path ∈ removedFiles [fpath] outcomes ↔
        fpath = some path ∧ outcomes[0]?.join = none := by
      simp only [removedFiles, List.head?_eq_getElem?]
      cases outcomes[0]?.join <;> rcases fpath with _ | other <;> simp [eq_comm]
    rw [removedFiles_cons, List.mem_append, first, mem_removedFiles]
    constructor
    · rintro (⟨rfl, ok⟩ | ⟨i, found, ok⟩)
      · exact ⟨0, List.getElem?_cons_zero, ok⟩
      · exact ⟨i + 1, List.getElem?_cons_succ.trans found, by rwa [← List.getElem?_tail]⟩
    · rintro ⟨_ | i, found, ok⟩
      · exact .inl ⟨Option.some.inj (List.getElem?_cons_zero.symm.trans found), ok⟩
      · exact .inr ⟨i, List.getElem?_cons_succ.symm.trans found, by rwa [List.getElem?_tail]⟩

/-- A walk `nftw` cannot start answers its `errno` and changes nothing else. -/
theorem nikssPipelineUnload_of_error (ctx : NikssContext) (e : Nat) (w : World) :
    nikssPipelineUnload ctx (.error e) w = some ((e : Int), { w with errno := e }) := rfl

/-- The unload of a walk answers `NO_ERROR` and unlinks the files of the walk whose own
removal meets no failure. -/
theorem nikssPipelineUnload_apply (ctx : NikssContext) (entries : List FtwEntry) (w : World) :
    ∃ errno, nikssPipelineUnload ctx (.ok entries) w = some (NO_ERROR, { w with
      pins := unpinAll (removedFiles (entries.map (FtwEntry.path ctx)) w.outcomes) w.pins
      outcomes := w.outcomes.drop entries.length, errno }) := by
  obtain ⟨errno, walked⟩ := nftwLoop_removeFile (entries.map (FtwEntry.path ctx)) w
  refine ⟨errno, ?_⟩
  simp only [nikssPipelineUnload, removePipelineDirectory, nftw, Except.map, Sys.bind_apply, walked,
    Option.some_bind, ne_eq, not_true_eq_false, if_false, List.length_map]
  rfl

/-! ## What an unload removes -/

/-- Every file of a pipeline's walk belongs to the pipeline's namespace. -/
theorem FtwEntry.pipeline_path {ctx : NikssContext} {path : Path} :
    ∀ {entry : FtwEntry}, entry.path ctx = some path → path.pipeline = some ctx.pipelineId
  | .prog _, named | .map _, named => by cases named; rfl

theorem visited_of_mem_removedFiles {ctx : NikssContext} {entries : List FtwEntry}
    {outcomes : List (Option ℕ+)} {path : Path}
    (removed : path ∈ removedFiles (entries.map (FtwEntry.path ctx)) outcomes) :
    ∃ entry ∈ entries, entry.path ctx = some path := by
  obtain ⟨i, found, -⟩ := mem_removedFiles.mp removed
  rw [List.getElem?_map] at found
  obtain ⟨entry, atIndex, named⟩ := Option.map_eq_some'.mp found
  exact ⟨entry, List.getElem?_mem atIndex, named⟩

theorem mem_removedFiles_of_visited {ctx : NikssContext} {entries : List FtwEntry}
    {outcomes : List (Option ℕ+)} {i : Nat} {entry : FtwEntry} {path : Path}
    (found : entries[i]? = some entry) (named : entry.path ctx = some path)
    (ok : outcomes[i]?.join = none) :
    path ∈ removedFiles (entries.map (FtwEntry.path ctx)) outcomes :=
  mem_removedFiles.mpr ⟨i, by rw [List.getElem?_map, found, Option.map_some', named], ok⟩

/-- Unloading is best effort, each removal on its own: whatever the outcome sequence, the
unload of a walk answers `NO_ERROR`; every program or map of the walk whose own removal
meets no failure is unpinned, however the other removals go; a path the walk does not
visit keeps its pin; and the objects, the map contents, the open handles and the
interfaces are left as they were. -/
theorem nikssPipelineUnload_best_effort (ctx : NikssContext) (entries : List FtwEntry) (w : World) :
    ∃ w', nikssPipelineUnload ctx (.ok entries) w = some (NO_ERROR, w') ∧
      (∀ (i : Nat) (entry : FtwEntry) (path : Path), entries[i]? = some entry →
        entry.path ctx = some path → w.outcomes[i]?.join = none → w'.pins path = none) ∧
      (∀ path, (∀ entry ∈ entries, entry.path ctx ≠ some path) → w'.pins path = w.pins path) ∧
      w'.objects = w.objects ∧ w'.elems = w.elems ∧ w'.fds = w.fds ∧ w'.ifaces = w.ifaces := by
  obtain ⟨errno, run⟩ := nikssPipelineUnload_apply ctx entries w
  refine ⟨_, run, fun i entry path found named ok => ?_, fun path unvisited => ?_, rfl, rfl, rfl, rfl⟩
  · exact if_pos (mem_removedFiles_of_visited found named ok)
  · refine if_neg fun removed => ?_
    obtain ⟨entry, mem, named⟩ := visited_of_mem_removedFiles removed
    exact unvisited entry mem named

/-- With nothing failing from outside, the unload of a walk that visits every pinned
program and map of the pipeline leaves none of the pipeline's paths pinned, and every
path of another pipeline or of libbpf's pin root as it was. -/
theorem nikssPipelineUnload_clears_namespace (ctx : NikssContext) (entries : List FtwEntry)
    {w : World} (quiet : w.outcomes = [])
    (listed : ∀ path, path.pipeline = some ctx.pipelineId → (w.pins path).isSome →
      ∃ entry ∈ entries, entry.path ctx = some path) :
    ∃ w', nikssPipelineUnload ctx (.ok entries) w = some (NO_ERROR, w') ∧
      (∀ path, path.pipeline = some ctx.pipelineId → w'.pins path = none) ∧
      ∀ path, path.pipeline ≠ some ctx.pipelineId → w'.pins path = w.pins path := by
  obtain ⟨errno, run⟩ := nikssPipelineUnload_apply ctx entries w
  refine ⟨_, run, fun path own => ?_, fun path other => if_neg fun removed => ?_⟩
  · show unpinAll _ w.pins path = none
    cases pinned : w.pins path with
    | none => by_cases removed : path ∈ removedFiles (entries.map (FtwEntry.path ctx)) w.outcomes <;>
        simp [unpinAll, removed, pinned]
    | some _ =>
      obtain ⟨entry, mem, named⟩ := listed path own (by simp [pinned])
      obtain ⟨i, found⟩ := List.mem_iff_getElem?.mp mem
      exact if_pos (mem_removedFiles_of_visited found named (by simp [quiet]))
  · obtain ⟨entry, -, named⟩ := visited_of_mem_removedFiles removed
    exact other (FtwEntry.pipeline_path named)

/-- `nikssPipelineUnload_clears_namespace` on pipeline 1, with a program and a map pinned
and a map of the same name in pipeline 2, walked maps first. -/
theorem nikssPipelineUnload_clears_namespace_on_two_pipelines :
    let w : World := { World.boot (fun _ => none) [] (fun _ => .bare false) [] with
      pins := fun path => if path = .prog 1 "ingress" then some 1
        else if path = .map 1 "t" then some 2 else if path = .map 2 "t" then some 3 else none }
    let entries : List FtwEntry := [.map "t", .directory, .prog "ingress", .directory]
    w.outcomes = [] ∧
      (∀ path, path.pipeline = some 1 → (w.pins path).isSome →
        ∃ entry ∈ entries, entry.path ⟨1⟩ = some path) ∧
      ∃ w', nikssPipelineUnload ⟨1⟩ (.ok entries) w = some (NO_ERROR, w') ∧
        (∀ path, path.pipeline = some 1 → w'.pins path = none) ∧
        ∀ path, path.pipeline ≠ some 1 → w'.pins path = w.pins path := by
  intro w entries
  have listed : ∀ path, path.pipeline = some 1 → (w.pins path).isSome →
      ∃ entry ∈ entries, entry.path ⟨1⟩ = some path := by
    intro path own pinned
    simp only [w] at pinned
    split_ifs at pinned with ingress table other
    · exact ⟨.prog "ingress", by decide, ingress ▸ rfl⟩
    · exact ⟨.map "t", by decide, table ▸ rfl⟩
    · exact absurd (other ▸ own) (by decide)
    · exact absurd pinned (by decide)
  exact ⟨rfl, listed, nikssPipelineUnload_clears_namespace ⟨1⟩ entries rfl listed⟩

end Nikss

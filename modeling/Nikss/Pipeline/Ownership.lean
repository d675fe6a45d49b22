import Nikss.Pipeline.Isolation

/-! # Each pipeline writes its own maps

A control plane runs operations on many pipelines of one kernel. Besides its namespace
(`Isolation`), a pipeline owns the objects pinned under it, and a maintainer needs no
operation on another pipeline to write into its maps.

Two facts of every state the library reaches carry this. `World.Allocated`: the handles
from `nextFd` on are free, and every pin and every open handle names an object already
created. `World.Owned`: every pinned object has one owner, a single pipeline or libbpf's
pin root, where it is pinned under one name (`World.RootsUnshared`). The root counts
because `bpf_prog_load` takes over a map pinned there under the name of a map of the
object (`bpf_object__reuse_map`), and the load then moves it under its own pipeline.

An operation on pipeline `p` is confined to it (`World.Confined`): its handles close or
stay; a pin changes at libbpf's pin root or under `p` only; under `p` it is removed or
names an object the operation created, one of `p` or one the root held, and then the root
no longer holds it; at the root it is removed or names an object the operation created,
pinned nowhere else; and only maps of `p`, maps the root held and maps the operation
created change contents. Each call is confined. A write through a handle is confined when
the handle was opened on a path of `p`, which `open_bpf_map` guarantees
(`openBpfMap_opens`). A pin is confined when its handle is on an object the load created or
took over and the root no longer holds it (`bpfProgLoad_handles`, and the unpin before each
map's pin).

From there, over any run of operations (`runOps`), the two facts hold in every state
reached (`runOps_owned`), and the maps of a pipeline that no operation of the run addresses
keep their contents (`runOps_keeps_contents`).
-/

namespace Nikss

/-! ## Ownership -/

/-- The handles from `nextFd` on are free, and every pin and every open handle names an
object already created. -/
structure World.Allocated (w : World) : Prop where
  fresh : w.FreshFds
  pinned : ∀ path id, w.pins path = some id → id < w.nextId
  opened : ∀ fd id, w.fds fd = some id → id < w.nextId

/-- An object pinned at libbpf's pin root is pinned under no other path, the root's other
names included. -/
def World.RootsUnshared (w : World) : Prop :=
  ∀ name id path, w.pins (.root name) = some id → w.pins path = some id → path = .root name

/-- Every pinned object has one owner: no object is pinned under two pipelines, and an
object pinned at libbpf's pin root is pinned nowhere else. -/
structure World.Owned (w : World) : Prop where
  pipelines : ∀ path path' id p p', w.pins path = some id → w.pins path' = some id →
    path.pipeline = some p → path'.pipeline = some p' → p = p'
  roots : w.RootsUnshared

/-- The objects pinned under pipeline `p`. -/
def World.OwnedBy (w : World) (p : Nat) (id : ℕ+) : Prop :=
  ∃ path, path.pipeline = some p ∧ w.pins path = some id

/-- The objects pinned at libbpf's pin root, which a load takes over for a map of the same
name (`bpf_object__reuse_map`). -/
def World.AtRoot (w : World) (id : ℕ+) : Prop :=
  ∃ name, w.pins (.root name) = some id

/-- A run confined to pipeline `p`, the objects from `fresh` on being the ones it created,
`own` the ones it may take, and `unshared` what it may assume of libbpf's root when it
started: handles stay or close, ids and handle numbers grow; a pin changes at the root or
under `p` only; under `p` it is removed or names a new or own object, which the root no
longer holds when `unshared`; at the root it is removed or names an object the run
created, pinned nowhere else when `unshared`; and only own and new maps change contents. -/
structure World.Confined (p : Nat) (fresh : ℕ+) (own : ℕ+ → Prop) (unshared : Prop) (w w' : World) :
    Prop where
  nextFd : w.nextFd ≤ w'.nextFd
  nextId : w.nextId ≤ w'.nextId
  fds : ∀ fd < w.nextFd, w'.fds fd = w.fds fd ∨ w'.fds fd = none
  pins : ∀ path, w'.pins path ≠ w.pins path → path.pipeline = none ∨ path.pipeline = some p ∧
    ∀ id, w'.pins path = some id → (fresh ≤ id ∨ own id) ∧ (unshared → ¬ w'.AtRoot id)
  roots : ∀ name id, w'.pins (.root name) ≠ w.pins (.root name) → w'.pins (.root name) = some id →
    w.nextId ≤ id ∧ (unshared → ∀ path, w'.pins path = some id → path = .root name)
  elems : ∀ id, w'.elems id ≠ w.elems id → fresh ≤ id ∨ own id

namespace World.Confined

variable {p : Nat} {fresh : ℕ+} {own : ℕ+ → Prop} {unshared : Prop} {w w₁ w₂ : World}

/-- A pin a confined run changes names no object that libbpf's root holds under another
name. -/
theorem changed_rooted (confined : w.Confined p fresh own unshared w₁) (holds : unshared)
    {path : Path} {name : String} {id : ℕ+} (changed : w₁.pins path ≠ w.pins path)
    (pinned : w₁.pins path = some id) (rooted : w₁.pins (.root name) = some id) : path = .root name := by
  rcases confined.pins path changed with root | ⟨-, moved⟩
  · cases path with
    | root other => exact (((confined.roots other id changed pinned).2 holds) _ rooted).symm
    | prog _ _ | map _ _ => cases root
  · exact absurd ⟨name, rooted⟩ ((moved id pinned).2 holds)

/-- An object libbpf's root holds after a confined run is one it held before or one the run
created. -/
theorem atRoot_new (confined : w.Confined p fresh own unshared w₁) {id : ℕ+} (rooted : w₁.AtRoot id) :
    w.nextId ≤ id ∨ w.AtRoot id := by
  obtain ⟨name, root⟩ := rooted
  by_cases same : w₁.pins (.root name) = w.pins (.root name)
  · exact .inr ⟨name, same ▸ root⟩
  · exact .inl (confined.roots name id same root).1

theorem refl (w : World) : w.Confined p fresh own unshared w :=
  ⟨le_rfl, le_rfl, fun _ _ => .inl rfl, fun _ same => absurd rfl same, fun _ _ same => absurd rfl same,
    fun _ same => absurd rfl same⟩

theorem trans (first : w.Confined p fresh own unshared w₁) (second : w₁.Confined p fresh own unshared w₂) :
    w.Confined p fresh own unshared w₂ where
  nextFd := first.nextFd.trans second.nextFd
  nextId := first.nextId.trans second.nextId
  fds fd below := by
    rcases second.fds fd (lt_of_lt_of_le below first.nextFd) with kept | closed
    · exact kept ▸ first.fds fd below
    · exact .inr closed
  pins path changed := by
    by_cases later : w₂.pins path = w₁.pins path
    · rcases first.pins path (later ▸ changed) with root | ⟨inP, created⟩
      · exact .inl root
      refine .inr ⟨inP, fun id pinned => ⟨(created id (later ▸ pinned)).1, fun holds ⟨name, rooted⟩ => ?_⟩⟩
      by_cases kept : w₂.pins (.root name) = w₁.pins (.root name)
      · exact (created id (later ▸ pinned)).2 holds ⟨name, kept ▸ rooted⟩
      · obtain rfl := (second.roots name id kept rooted).2 holds path pinned
        cases inP
    · exact second.pins path later
  roots name id changed pinned := by
    by_cases later : w₂.pins (.root name) = w₁.pins (.root name)
    · obtain ⟨created, only⟩ := first.roots name id (later ▸ changed) (later ▸ pinned)
      refine ⟨created, fun holds path pinned' => ?_⟩
      by_cases kept : w₂.pins path = w₁.pins path
      · exact only holds path (kept ▸ pinned')
      · exact second.changed_rooted holds kept pinned' pinned
    · exact ⟨first.nextId.trans (second.roots name id later pinned).1, (second.roots name id later pinned).2⟩
  elems id changed := by
    by_cases later : w₂.elems id = w₁.elems id
    · exact first.elems id (later ▸ changed)
    · exact second.elems id later

/-- A step that changes no pin, no map and no handle number. -/
theorem of_same (pins : w₁.pins = w.pins) (elems : w₁.elems = w.elems) (fds : w₁.fds = w.fds)
    (nextFd : w₁.nextFd = w.nextFd) (nextId : w₁.nextId = w.nextId) :
    w.Confined p fresh own unshared w₁ :=
  ⟨nextFd.ge, nextId.ge, fun _ _ => .inl (fds ▸ rfl), fun _ changed => absurd (pins ▸ rfl) changed,
    fun _ _ changed => absurd (pins ▸ rfl) changed, fun _ changed => absurd (elems ▸ rfl) changed⟩

/-- A handle open after a confined run, numbered below the old `nextFd`, was open before
on the same object. -/
theorem lookup_before (confined : w.Confined p fresh own unshared w₁) {fd : Int} {id : ℕ+}
    (bound : 0 ≤ fd → fd.toNat < w.nextFd) (opened : w₁.lookupFd fd = some id) : w.lookupFd fd = some id := by
  have valid : 0 ≤ fd := by by_contra negative; simp [World.lookupFd, negative] at opened
  rcases confined.fds fd.toNat (bound valid) with kept | closed
  · simpa [World.lookupFd, valid, kept] using opened
  · simp [World.lookupFd, valid, closed] at opened

end World.Confined

/-- A confined run from a state where libbpf's root is unshared keeps it unshared. -/
theorem World.RootsUnshared.of_confined {p : Nat} {fresh : ℕ+} {own : ℕ+ → Prop} {unshared : Prop}
    {w w' : World} (roots : w.RootsUnshared) (confined : w.Confined p fresh own unshared w')
    (holds : unshared) : w'.RootsUnshared := by
  intro name id path rooted pinned
  by_cases same : w'.pins (.root name) = w.pins (.root name)
  · by_cases kept : w'.pins path = w.pins path
    · exact roots name id path (same ▸ rooted) (kept ▸ pinned)
    · exact confined.changed_rooted holds kept pinned rooted
  · exact (confined.roots name id same rooted).2 holds path pinned

namespace World.Allocated

variable {w w₁ : World}

theorem of_same (allocated : w.Allocated) (pins : w₁.pins = w.pins) (fds : w₁.fds = w.fds)
    (nextFd : w₁.nextFd = w.nextFd) (nextId : w₁.nextId = w.nextId) : w₁.Allocated :=
  ⟨fun n bound => fds ▸ allocated.fresh n (nextFd ▸ bound),
    fun path id pinned => nextId ▸ allocated.pinned path id (pins ▸ pinned),
    fun fd id opened => nextId ▸ allocated.opened fd id (fds ▸ opened)⟩

end World.Allocated

/-- Every object pinned under `p` is one of `own` or a new one. -/
def World.PinsIn (p : Nat) (fresh : ℕ+) (own : ℕ+ → Prop) (w : World) : Prop :=
  ∀ path id, path.pipeline = some p → w.pins path = some id → fresh ≤ id ∨ own id

/-- A handle, not yet reused, on an object of `allowed` if it is open. -/
def World.HandleIn (allowed : ℕ+ → Prop) (fd : Int) (w : World) : Prop :=
  (0 ≤ fd → fd.toNat < w.nextFd) ∧ ∀ id, w.lookupFd fd = some id → allowed id

/-- A handle, not yet reused, on an object created before `nextId` that libbpf's root pins
under names of `names` only. -/
def World.RootedIn (names : String → Prop) (fd : Int) (w : World) : Prop :=
  (0 ≤ fd → fd.toNat < w.nextFd) ∧ ∀ id, w.lookupFd fd = some id → id < w.nextId ∧
    ∀ name, w.pins (.root name) = some id → names name

section Handles

variable {p : Nat} {fresh : ℕ+} {own : ℕ+ → Prop} {unshared : Prop} {w w' : World} {fd : Int}

theorem World.PinsIn.of_confined (pinsIn : w.PinsIn p fresh own)
    (confined : w.Confined p fresh own unshared w') : w'.PinsIn p fresh own := by
  intro path id inP pinned
  by_cases same : w'.pins path = w.pins path
  · exact pinsIn path id inP (same ▸ pinned)
  · rcases confined.pins path same with root | ⟨-, created⟩
    · exact absurd (inP.symm.trans root) (Option.some_ne_none p)
    · exact (created id pinned).1

theorem World.HandleIn.of_confined {allowed : ℕ+ → Prop} (handle : w.HandleIn allowed fd)
    (confined : w.Confined p fresh own unshared w') : w'.HandleIn allowed fd :=
  ⟨fun valid => lt_of_lt_of_le (handle.1 valid) confined.nextFd,
    fun id opened => handle.2 id (confined.lookup_before handle.1 opened)⟩

theorem World.HandleIn.mono {allowed allowed' : ℕ+ → Prop} (handle : w.HandleIn allowed fd)
    (sub : ∀ id, allowed id → allowed' id) : w.HandleIn allowed' fd :=
  ⟨handle.1, fun id found => sub id (handle.2 id found)⟩

/-- A negative handle, as a failed open returns, is no handle. -/
theorem World.HandleIn.of_neg {allowed : ℕ+ → Prop} (negative : fd < 0) : w.HandleIn allowed fd :=
  ⟨fun valid => absurd valid (not_le.mpr negative), fun _ found => by
    simp [World.lookupFd, not_le.mpr negative] at found⟩

theorem World.HandleIn.withHandle {allowed : ℕ+ → Prop} {id : ℕ+} (yes : allowed id) :
    (w.withHandle id).HandleIn allowed w.nextFd := by
  refine ⟨fun _ => by simp, fun id' found => ?_⟩
  rw [World.lookupFd_withHandle_self] at found
  cases found
  exact yes

/-- A confined run adds no root pin on an object created before it. -/
theorem World.RootedIn.of_confined {names : String → Prop} (rooted : w.RootedIn names fd)
    (confined : w.Confined p fresh own unshared w') : w'.RootedIn names fd := by
  refine ⟨fun valid => lt_of_lt_of_le (rooted.1 valid) confined.nextFd, fun id opened => ?_⟩
  obtain ⟨created, named⟩ := rooted.2 id (confined.lookup_before rooted.1 opened)
  refine ⟨lt_of_lt_of_le created confined.nextId, fun name root => ?_⟩
  by_cases same : w'.pins (.root name) = w.pins (.root name)
  · exact named name (same ▸ root)
  · exact absurd (confined.roots name id same root).1 (not_le.mpr created)

theorem World.RootedIn.mono {names names' : String → Prop} (rooted : w.RootedIn names fd)
    (sub : ∀ name id, w.pins (.root name) = some id → names name → names' name) : w.RootedIn names' fd :=
  ⟨rooted.1, fun id found => ⟨(rooted.2 id found).1, fun name root => sub name id root ((rooted.2 id found).2 name root)⟩⟩

theorem World.RootedIn.withHandle {names : String → Prop} {id : ℕ+} (numbered : fd = w.nextFd)
    (created : id < w.nextId) (named : ∀ name, w.pins (.root name) = some id → names name) :
    (w.withHandle id).RootedIn names fd := by
  subst numbered
  refine ⟨fun _ => by simp, fun id' found => ?_⟩
  rw [World.lookupFd_withHandle_self] at found
  cases found
  exact ⟨created, named⟩

end Handles

/-- An open handle names an object already created. -/
theorem World.Allocated.lookup {w : World} (allocated : w.Allocated) {fd : Int} {id : ℕ+}
    (found : w.lookupFd fd = some id) : id < w.nextId := by
  unfold World.lookupFd at found
  split_ifs at found
  exact allocated.opened _ id found

/-- Setting one pin, to nothing or to an object already created. -/
theorem World.Allocated.update_pins {w : World} (allocated : w.Allocated) (path : Path)
    {pin : Option ℕ+} (created : ∀ id, pin = some id → id < w.nextId) :
    ({ w with pins := Function.update w.pins path pin } : World).Allocated := by
  refine ⟨allocated.fresh, fun path' id pinned => ?_, allocated.opened⟩
  simp only [Function.update_apply] at pinned
  split_ifs at pinned
  · exact created id pinned
  · exact allocated.pinned path' id pinned

theorem update_changed_at {α β : Type} [DecidableEq α] {f : α → β} {a x : α} {b : β}
    (changed : Function.update f a b x ≠ f x) : x = a :=
  by_contra fun other => changed (Function.update_noteq other b f)

/-- A change of the pins alone, where `Confined` allows it, that adds no pin at libbpf's
root. -/
theorem World.Confined.of_pins {p : Nat} {fresh : ℕ+} {own : ℕ+ → Prop} {unshared : Prop} {w w' : World}
    (elems : w'.elems = w.elems) (fds : w'.fds = w.fds) (nextFd : w'.nextFd = w.nextFd)
    (nextId : w'.nextId = w.nextId)
    (changed : ∀ path, w'.pins path ≠ w.pins path → path.pipeline = none ∨ path.pipeline = some p ∧
      ∀ id, w'.pins path = some id → (fresh ≤ id ∨ own id) ∧ (unshared → ¬ w'.AtRoot id))
    (removed : ∀ name, w'.pins (.root name) ≠ w.pins (.root name) → w'.pins (.root name) = none) :
    w.Confined p fresh own unshared w' :=
  ⟨nextFd.ge, nextId.ge, fun _ _ => .inl (fds ▸ rfl), changed,
    fun name _ same pinned => (nomatch (removed name same).symm.trans pinned),
    fun _ changed => absurd (elems ▸ rfl) changed⟩

/-! ## Runs confined to a pipeline -/

section Frame

variable {α β : Type} {p : Nat} {fresh : ℕ+} {own : ℕ+ → Prop} {unshared : Prop}

/-- A run of `m` from `w`, allocated and with the pins of `p` among its own and new
objects, ends allocated and confined to `p`. -/
def ConfinedFrom (p : Nat) (fresh : ℕ+) (own : ℕ+ → Prop) (unshared : Prop) (w : World) (m : Sys α) :
    Prop :=
  w.Allocated → w.PinsIn p fresh own → ∀ r w', m w = some (r, w') →
    w'.Allocated ∧ w.Confined p fresh own unshared w'

/-- Every run of `m` is confined to `p`. -/
def ConfinedRun (p : Nat) (fresh : ℕ+) (own : ℕ+ → Prop) (unshared : Prop) (m : Sys α) : Prop :=
  ∀ w, ConfinedFrom p fresh own unshared w m

/-- Sequencing, where the rest may use what the first computation leaves (`post`). -/
theorem ConfinedFrom.bind_post {w : World} {m : Sys α} {f : α → Sys β} {post : α → World → Prop}
    (first : ConfinedFrom p fresh own unshared w m)
    (holds : w.Allocated → w.PinsIn p fresh own → ∀ a w₁, m w = some (a, w₁) → post a w₁)
    (rest : ∀ a w₁, post a w₁ → w.Confined p fresh own unshared w₁ → ConfinedFrom p fresh own unshared w₁ (f a)) :
    ConfinedFrom p fresh own unshared w (m >>= f) := by
  intro allocated pinsIn r w' run
  obtain ⟨⟨a, w₁⟩, ran, continued⟩ := Option.bind_eq_some.mp run
  obtain ⟨allocated₁, confined₁⟩ := first allocated pinsIn a w₁ ran
  obtain ⟨allocated', confined'⟩ := rest a w₁ (holds allocated pinsIn a w₁ ran) confined₁
    allocated₁ (pinsIn.of_confined confined₁) r w' continued
  exact ⟨allocated', confined₁.trans confined'⟩

theorem ConfinedFrom.bind {w : World} {m : Sys α} {f : α → Sys β}
    (first : ConfinedFrom p fresh own unshared w m)
    (rest : ∀ a w₁, w.Confined p fresh own unshared w₁ → ConfinedFrom p fresh own unshared w₁ (f a)) :
    ConfinedFrom p fresh own unshared w (m >>= f) :=
  first.bind_post (fun _ _ _ _ _ => trivial) fun a w₁ _ => rest a w₁

/-- Setting the world to a confined successor, then going on from there. -/
theorem ConfinedFrom.set_bind {w w₁ : World} {f : PUnit → Sys β}
    (allocated : w.Allocated → w₁.Allocated) (confined : w.Confined p fresh own unshared w₁)
    (rest : ConfinedFrom p fresh own unshared w₁ (f ⟨⟩)) : ConfinedFrom p fresh own unshared w (set w₁ >>= f) := by
  intro allocated₀ pinsIn r w' run
  obtain ⟨allocated', confined'⟩ := rest (allocated allocated₀) (pinsIn.of_confined confined) r w' run
  exact ⟨allocated', confined.trans confined'⟩

/-- Setting the world to one with the same pins, maps and handles. -/
theorem ConfinedFrom.set_same {w w₁ : World} {f : PUnit → Sys β} (pins : w₁.pins = w.pins)
    (elems : w₁.elems = w.elems) (fds : w₁.fds = w.fds) (nextFd : w₁.nextFd = w.nextFd)
    (nextId : w₁.nextId = w.nextId) (rest : ConfinedFrom p fresh own unshared w₁ (f ⟨⟩)) :
    ConfinedFrom p fresh own unshared w (set w₁ >>= f) :=
  .set_bind (fun allocated => allocated.of_same pins fds nextFd nextId)
    (.of_same pins elems fds nextFd nextId) rest

namespace ConfinedRun

theorem pure (a : α) : ConfinedRun p fresh own unshared (pure a : Sys α) := by
  rintro w allocated - r w' ⟨⟩
  exact ⟨allocated, .refl w⟩

theorem bind {m : Sys α} {f : α → Sys β} (first : ConfinedRun p fresh own unshared m)
    (rest : ∀ a, ConfinedRun p fresh own unshared (f a)) : ConfinedRun p fresh own unshared (m >>= f) :=
  fun w => (first w).bind fun a w₁ _ => rest a w₁

theorem get_bind {f : World → Sys β} (rest : ∀ w, ConfinedFrom p fresh own unshared w (f w)) :
    ConfinedRun p fresh own unshared (MonadState.get >>= f) :=
  fun w => rest w

theorem ite {c : Prop} [Decidable c] {a b : Sys α} (yes : ConfinedRun p fresh own unshared a)
    (no : ConfinedRun p fresh own unshared b) : ConfinedRun p fresh own unshared (if c then a else b) := by
  split
  · exact yes
  · exact no

theorem liftM (x : Option α) : ConfinedRun p fresh own unshared (liftM x : Sys α) := by
  intro w allocated _ r w' run
  obtain ⟨_, -, ⟨⟩⟩ := Option.map_eq_some'.mp ((Sys.liftM_apply w x).symm.trans run)
  exact ⟨allocated, .refl w⟩

/-- A step to a world with the same pins, maps and handles. -/
theorem of_same {m : Sys α}
    (same : ∀ w r w', m w = some (r, w') → w'.pins = w.pins ∧ w'.elems = w.elems ∧
      w'.fds = w.fds ∧ w'.nextFd = w.nextFd ∧ w'.nextId = w.nextId) :
    ConfinedRun p fresh own unshared m := by
  intro w allocated _ r w' run
  obtain ⟨pins, elems, fds, nextFd, nextId⟩ := same w r w' run
  exact ⟨allocated.of_same pins fds nextFd nextId, .of_same pins elems fds nextFd nextId⟩

end ConfinedRun

/-- Changing the world by `g` to a confined successor, then going on from there. -/
theorem ConfinedFrom.modify_bind {w : World} {g : World → World} {f : PUnit → Sys β}
    (allocated : w.Allocated → (g w).Allocated) (confined : w.Confined p fresh own unshared (g w))
    (rest : ConfinedFrom p fresh own unshared (g w) (f ⟨⟩)) : ConfinedFrom p fresh own unshared w (modify g >>= f) := by
  intro allocated₀ pinsIn r w' run
  obtain ⟨allocated', confined'⟩ := rest (allocated allocated₀) (pinsIn.of_confined confined) r w' run
  exact ⟨allocated', confined.trans confined'⟩

theorem ConfinedFrom.get_bind {w : World} {f : World → Sys β}
    (rest : ConfinedFrom p fresh own unshared w (f w)) : ConfinedFrom p fresh own unshared w (MonadState.get >>= f) :=
  rest

/-- A call that takes an outcome, fails on a failing one, and otherwise goes on from the
state it reads. -/
theorem ConfinedFrom.outcome {w : World} {onFailure : ℕ+ → Sys α} {body : World → Sys α}
    (failed : ∀ e, ConfinedRun p fresh own unshared (onFailure e))
    (proceeds : ∀ w₁, w.Confined p fresh own unshared w₁ → ConfinedFrom p fresh own unshared w₁ (body w₁)) :
    ConfinedFrom p fresh own unshared w (do match ← nextOutcome with
      | some e => onFailure e
      | none => MonadState.get >>= body) := by
  refine (ConfinedRun.of_same (fun w r w' run => ?_) w).bind fun
    | some e => fun w₁ _ => failed e w₁
    | none => fun w₁ confined => proceeds w₁ confined
  rw [nextOutcome_apply] at run
  cases run
  exact ⟨rfl, rfl, rfl, rfl, rfl⟩

theorem ConfinedRun.outcome {onFailure : ℕ+ → Sys α} {body : World → Sys α}
    (failed : ∀ e, ConfinedRun p fresh own unshared (onFailure e))
    (proceeds : ∀ w, ConfinedFrom p fresh own unshared w (body w)) :
    ConfinedRun p fresh own unshared (do match ← nextOutcome with
      | some e => onFailure e
      | none => MonadState.get >>= body) :=
  fun _ => .outcome failed fun w₁ _ => proceeds w₁

theorem ConfinedFrom.ite {c : Prop} [Decidable c] {w : World} {a b : Sys α}
    (yes : ConfinedFrom p fresh own unshared w a) (no : ConfinedFrom p fresh own unshared w b) :
    ConfinedFrom p fresh own unshared w (if c then a else b) := by
  split
  · exact yes
  · exact no

/-- A branch whose arms may use its condition. -/
theorem ConfinedFrom.by_cases {c : Prop} [Decidable c] {w : World} {a b : Sys α}
    (yes : c → ConfinedFrom p fresh own unshared w a) (no : ¬c → ConfinedFrom p fresh own unshared w b) :
    ConfinedFrom p fresh own unshared w (if c then a else b) := by
  split
  · exact yes ‹_›
  · exact no ‹_›

end Frame

/-! ## The calls -/

section Calls

variable {p : Nat} {fresh : ℕ+} {own : ℕ+ → Prop} {unshared : Prop}

theorem nextOutcome_confined : ConfinedRun p fresh own unshared nextOutcome :=
  ConfinedRun.of_same fun w r w' run => by
    rw [nextOutcome_apply] at run
    cases run
    exact ⟨rfl, rfl, rfl, rfl, rfl⟩

theorem fail_confined (e : Nat) : ConfinedRun p fresh own unshared (fail e) :=
  ConfinedRun.of_same fun _ _ _ run => by cases run; exact ⟨rfl, rfl, rfl, rfl, rfl⟩

theorem getErrno_confined : ConfinedRun p fresh own unshared getErrno :=
  ConfinedRun.get_bind fun w => ConfinedRun.pure _ w

theorem crash_confined : ConfinedRun p fresh own unshared (crash : Sys α) :=
  fun _ _ _ _ _ run => nomatch run

theorem close_confined (fd : Int) : ConfinedRun p fresh own unshared (close fd) := by
  intro w allocated _ r w' run
  cases run
  dsimp only
  split_ifs
  · refine ⟨⟨fun n bound => ?_, allocated.pinned, fun n id opened => ?_⟩,
      ⟨le_rfl, le_rfl, fun n _ => ?_, fun _ same => absurd rfl same, fun _ _ same => absurd rfl same,
        fun _ same => absurd rfl same⟩⟩
    · simp only [Function.update_apply]
      split_ifs
      · rfl
      · exact allocated.fresh n bound
    · simp only [Function.update_apply] at opened
      split_ifs at opened
      exact allocated.opened n id opened
    · simp only [Function.update_apply]
      split_ifs
      · exact .inr rfl
      · exact .inl rfl
  · exact ⟨allocated, .refl w⟩

theorem closeObjectFd_confined (fd : Int) : ConfinedRun p fresh own unshared (closeObjectFd fd) :=
  .ite (.pure _) ((close_confined fd).bind fun _ => .pure _)

/-- Opening a handle on an object already created. -/
theorem openHandle_confined {w : World} {id : ℕ+} (created : id < w.nextId) :
    ConfinedFrom p fresh own unshared w (openHandle id) := by
  rintro allocated - r w' ⟨⟩
  refine ⟨⟨(World.grows_withHandle id).fresh allocated.fresh, allocated.pinned,
    fun fd id' opened => ?_⟩, ⟨Nat.le_succ _, le_rfl, fun fd below => .inl ?_,
      fun _ same => absurd rfl same, fun _ _ same => absurd rfl same, fun _ same => absurd rfl same⟩⟩
  · simp only [World.withHandle, Function.update_apply] at opened
    split_ifs at opened
    · cases opened
      exact created
    · exact allocated.opened fd id' opened
  · simp only [World.withHandle, Function.update_noteq below.ne]

theorem bpfObjGet_confined (path : Path) : ConfinedRun p fresh own unshared (bpfObjGet path) := by
  refine .outcome (fun e => fail_confined e) fun w => ?_
  split
  · exact fail_confined _ w
  · exact fun allocated => openHandle_confined (allocated.pinned path _ ‹_›) allocated

theorem bpfObjGetInfoByFd_confined (fd : Int) : ConfinedRun p fresh own unshared (bpfObjGetInfoByFd fd) := by
  refine .outcome (fun e => (fail_confined e).bind fun _ => .pure _) fun w => ?_
  dsimp only
  split
  · exact ((fail_confined _).bind fun _ => .pure _) w
  · split
    · exact ((fail_confined _).bind fun _ => .pure _) w
    · exact ConfinedRun.pure _ w

theorem bpfSetLinkXdpFd_confined (ifindex fd : Int) (flags : XdpFlags) :
    ConfinedRun p fresh own unshared (bpfSetLinkXdpFd ifindex fd flags) := by
  refine .outcome (fun e => fail_confined e) fun w => ?_
  dsimp only
  exact .ite (fail_confined _ w) <| .ite (fail_confined _ w) <| .ite (fail_confined _ w) <|
    .ite (fail_confined _ w) (.set_same rfl rfl rfl rfl rfl (ConfinedRun.pure _ _))

theorem bpfGetLinkXdpId_confined (ifindex : Int) : ConfinedRun p fresh own unshared (bpfGetLinkXdpId ifindex) := by
  refine .outcome (fun e => (fail_confined e).bind fun _ => .pure _) fun w => ?_
  dsimp only
  split <;> exact ConfinedRun.pure _ w

theorem bpfTcHookCreate_confined (ifindex : Int) : ConfinedRun p fresh own unshared (bpfTcHookCreate ifindex) := by
  refine .outcome (fun e => fail_confined e) fun w => ?_
  dsimp only
  split_ifs
  all_goals first
    | exact fail_confined _ w
    | exact .set_same rfl rfl rfl rfl rfl (ConfinedRun.pure _ _)

theorem bpfTcHookDestroy_confined (ifindex : Int) : ConfinedRun p fresh own unshared (bpfTcHookDestroy ifindex) := by
  refine .outcome (fun e => fail_confined e) fun w => ?_
  dsimp only
  split_ifs
  all_goals first
    | exact fail_confined _ w
    | exact .set_same rfl rfl rfl rfl rfl (ConfinedRun.pure _ _)

theorem bpfTcAttach_confined (ifindex : Int) (point : TcAttachPoint) (fd : Int) :
    ConfinedRun p fresh own unshared (bpfTcAttach ifindex point fd) := by
  refine .outcome (fun e => fail_confined e) fun w => ?_
  dsimp only
  split_ifs
  · split
    all_goals first
      | exact fail_confined _ w
      | exact .set_same rfl rfl rfl rfl rfl (ConfinedRun.pure _ _)
  · exact fail_confined _ w

theorem bpfMapSetPinPath_confined : ConfinedRun p fresh own unshared bpfMapSetPinPath :=
  nextOutcome_confined.bind fun
    | some e => fail_confined e
    | none => .pure _

theorem bpfProgTestRun_confined (fd : Int) : ConfinedRun p fresh own unshared (bpfProgTestRun fd) :=
  .outcome (fun e => fail_confined e) fun w => ConfinedRun.ite (fail_confined _) (.pure _) w

theorem access_confined (path : Path) : ConfinedRun p fresh own unshared (access path) := by
  refine .outcome (fun e => fail_confined e) fun w => ?_
  split
  · exact fail_confined _ w
  · exact ConfinedRun.pure _ w

theorem ifNametoindex_confined (name : String) : ConfinedRun p fresh own unshared (ifNametoindex name) :=
  ConfinedRun.get_bind fun w => ConfinedRun.pure _ w

theorem ifNameindex_confined : ConfinedRun p fresh own unshared ifNameindex :=
  .outcome (fun e => (fail_confined e).bind fun _ => .pure _) fun w => ConfinedRun.pure _ w

/-- `bpf_obj_get` opens its handle on the object pinned at the path. -/
theorem bpfObjGet_opens {path : Path} {w w' : World} {fd : Int} (run : bpfObjGet path w = some (fd, w')) :
    w'.HandleIn (fun id => w.pins path = some id) fd := by
  obtain ⟨⟨outcome, w₁⟩, popped, run⟩ := Option.bind_eq_some.mp run
  have same := (nextOutcome_keepsXdp w _ _ popped).pins
  rcases outcome with _ | e
  · simp only [Sys.bind_apply, Sys.get_apply, Option.some_bind] at run
    cases pinned : w₁.pins path with
    | none =>
      rw [pinned] at run
      cases run
      exact .of_neg (by decide)
    | some id =>
      rw [pinned] at run
      cases run
      exact .withHandle (same ▸ pinned)
  · cases run
    exact .of_neg (by have := e.pos; omega)

theorem createObject_confined (object : KObject) : ConfinedRun p fresh own unshared (createObject object) := by
  refine ConfinedRun.get_bind fun w => .set_bind (fun allocated => ⟨allocated.fresh,
    fun path id pinned => (allocated.pinned path id pinned).trans (PNat.lt_add_right _ 1),
    fun fd id opened => (allocated.opened fd id opened).trans (PNat.lt_add_right _ 1)⟩)
    ⟨le_rfl, (PNat.lt_add_right _ 1).le, fun _ _ => .inl rfl, fun _ same => absurd rfl same,
      fun _ _ same => absurd rfl same, fun _ same => absurd rfl same⟩ ?_
  exact (openHandle_confined (PNat.lt_add_right _ 1)).bind fun _ _ _ => ConfinedRun.pure _ _

/-- A created object is new: its id is the old `nextId`, below the new one, and the
handle returned is open on it. -/
theorem createObject_created {object : KObject} {w w' : World} {r : Int × ℕ+}
    (run : createObject object w = some (r, w')) :
    w.nextId = r.2 ∧ r.2 < w'.nextId ∧ w'.HandleIn (· = r.2) r.1 := by
  rw [createObject_eq] at run
  cases run
  exact ⟨rfl, PNat.lt_add_right _ 1, .withHandle rfl⟩

/-- The world `loadMap` leaves when it creates a map pinned at libbpf's root: a handle
opened on the new map, pinned at the root. -/
theorem created_pinRoot_eq (w : World) (info : MapInfo) (name : String) :
    ({ w.created (.map info) with pins := Function.update w.pins (.root name) (some w.nextId) } : World) =
      World.withHandle
        { w with
          objects := Function.update w.objects w.nextId (some (.map info))
          nextId := w.nextId + 1
          pins := Function.update w.pins (.root name) (some w.nextId) } w.nextId := rfl

/-- Creating a map and pinning it at libbpf's root: the new root pin names the new object,
pinned nowhere else. -/
theorem createObject_pinRoot_confined (info : MapInfo) (name : String) {w : World}
    (allocated : w.Allocated) (pinsIn : w.PinsIn p fresh own) :
    ({ w.created (.map info) with pins := Function.update w.pins (.root name) (some w.nextId) } : World).Allocated ∧
      w.Confined p fresh own unshared
        { w.created (.map info) with pins := Function.update w.pins (.root name) (some w.nextId) } := by
  obtain ⟨allocated₁, confined₁⟩ : _ ∧ w.Confined p fresh own unshared _ :=
    createObject_confined (.map info) w allocated pinsIn _ _ (createObject_eq _ w)
  refine ⟨allocated₁.update_pins _ fun _ same => Option.some.inj same ▸ PNat.lt_add_right _ 1,
    ⟨confined₁.nextFd, confined₁.nextId, confined₁.fds, fun path changed => .inl ?_,
      fun name' id changed pinned => ?_, confined₁.elems⟩⟩
  · rw [update_changed_at changed]
    rfl
  · obtain rfl := Path.root.inj (update_changed_at changed)
    have created : Function.update w.pins (.root name') (some w.nextId) (.root name') = some id := pinned
    rw [Function.update_same] at created
    cases created
    refine ⟨le_rfl, fun _ path pinned' => by_contra fun other => ?_⟩
    have old : w.pins path = some w.nextId := by
      rw [← Function.update_noteq other (some w.nextId) w.pins]
      exact pinned'
    exact lt_irrefl _ (allocated.pinned path _ old)

theorem loadProg_confined (prog : ProgDef) : ConfinedRun p fresh own unshared (loadProg prog) :=
  ConfinedRun.get_bind fun w => ((createObject_confined _).bind fun _ => .pure _) w

theorem loadMap_confined (map : MapDef) : ConfinedRun p fresh own unshared (loadMap map) := by
  intro w allocated pinsIn r w' run
  rcases loadMap_cases map w with ⟨-, id, root, eq⟩ | ⟨-, eq⟩ <;> rw [eq] at run <;> cases run
  · exact openHandle_confined (allocated.pinned _ id root) allocated pinsIn _ _ rfl
  · split
    · exact createObject_pinRoot_confined map.info map.name allocated pinsIn
    · exact createObject_confined _ w allocated pinsIn _ _ (createObject_eq _ w)

theorem loadProg_opens {prog : ProgDef} {w w' : World} {loaded : LoadedProg}
    (run : loadProg prog w = some (loaded, w')) : w'.HandleIn (w.nextId ≤ ·) loaded.fd := by
  rw [loadProg_eq] at run
  cases run
  exact .withHandle le_rfl

/-- The handle `loadMap` opens is on a new object or on one libbpf's root holds. If the root
is unshared, the root pins that object at most under the map's own name, and only when the
map asks to be pinned there. -/
theorem loadMap_handle {map : MapDef} {w w' : World} {loaded : LoadedMap} (allocated : w.Allocated)
    (run : loadMap map w = some (loaded, w')) :
    w'.HandleIn (fun id => w.nextId ≤ id ∨ w.AtRoot id) loaded.fd ∧
      (w.RootsUnshared → w'.RootedIn (fun name => name = loaded.name ∧ loaded.pinned = true) loaded.fd) := by
  rcases loadMap_cases map w with ⟨-, id, root, eq⟩ | ⟨-, eq⟩ <;> rw [eq] at run <;> cases run
  · exact ⟨.withHandle (.inr ⟨_, root⟩), fun roots => .withHandle rfl (allocated.pinned _ id root)
      fun name root' => ⟨(Path.root.inj (roots name id _ root' root)).symm, rfl⟩⟩
  · have unrooted (name : String) : w.pins (.root name) ≠ some w.nextId := fun root =>
      lt_irrefl _ (allocated.pinned _ _ root)
    split_ifs with pinned
    · rw [created_pinRoot_eq]
      refine ⟨.withHandle (.inl le_rfl), fun _ => .withHandle rfl (PNat.lt_add_right _ 1) fun name root => ?_⟩
      by_cases same : name = map.name
      · exact ⟨same, pinned⟩
      · exact absurd ((Function.update_noteq (fun named => same (Path.root.inj named)) _ _).symm.trans root)
          (unrooted name)
    · exact ⟨.withHandle (.inl le_rfl), fun _ => .withHandle rfl (PNat.lt_add_right _ 1) fun name root =>
        absurd root (unrooted name)⟩

theorem mapM_confined {α β : Type} {f : α → Sys β} (each : ∀ a, ConfinedRun p fresh own unshared (f a)) :
    ∀ l : List α, ConfinedRun p fresh own unshared (l.mapM f)
  | [] => .pure _
  | a :: l => by
    rw [List.mapM_cons]
    exact (each a).bind fun _ => (mapM_confined each l).bind fun _ => .pure _

/-- Each handle a `mapM` of opening calls returns stays open on an object created by it. -/
theorem mapM_opens {α β : Type} {f : α → Sys β} {fdOf : β → Int}
    (each : ∀ a, ConfinedRun p fresh own unshared (f a))
    (opens : ∀ a w b w', f a w = some (b, w') → w'.HandleIn (w.nextId ≤ ·) (fdOf b)) :
    ∀ (l : List α) (w : World) (bs : List β) (w' : World), w.Allocated → w.PinsIn p fresh own →
      l.mapM f w = some (bs, w') → ∀ b ∈ bs, w'.HandleIn (w.nextId ≤ ·) (fdOf b)
  | [], _, _, _, _, _, run => by
    cases run
    exact fun _ none => absurd none (List.not_mem_nil _)
  | a :: l, w, bs, w', allocated, pinsIn, run => by
    rw [List.mapM_cons] at run
    obtain ⟨⟨b, w₁⟩, first, run⟩ := Option.bind_eq_some.mp run
    obtain ⟨⟨bs', w₂⟩, rest, done⟩ := Option.bind_eq_some.mp run
    cases done
    obtain ⟨allocated₁, confined₁⟩ := each a w allocated pinsIn b w₁ first
    have pinsIn₁ := pinsIn.of_confined confined₁
    obtain ⟨-, confined₂⟩ := mapM_confined each l w₁ allocated₁ pinsIn₁ bs' w' rest
    intro b' mem
    rcases List.mem_cons.mp mem with rfl | mem
    · exact (opens a w b' w₁ first).of_confined confined₂
    · exact (mapM_opens each opens l w₁ bs' w' allocated₁ pinsIn₁ rest b' mem).mono
        fun _ later => confined₁.nextId.trans later

/-- The map loop of `bpf_prog_load` leaves each map's handle open on a new object or on one
libbpf's root held; if the root was unshared, the root then pins it at most under the map's
name, and only when the map asks to be pinned there. -/
theorem loadMaps_handles :
    ∀ (maps : List MapDef) {w w' : World} {loaded : List LoadedMap}, w.Allocated →
      maps.mapM loadMap w = some (loaded, w') → ∀ map ∈ loaded,
        w'.HandleIn (fun id => w.nextId ≤ id ∨ w.AtRoot id) map.fd ∧
          (w.RootsUnshared → w'.RootedIn (fun name => name = map.name ∧ map.pinned = true) map.fd)
  | [], _, _, _, _, run => by
    cases run
    exact fun _ none => absurd none (List.not_mem_nil _)
  | map :: maps, w, w', _, allocated, run => by
    have each : ∀ map, ConfinedRun 0 1 (fun _ => True) True (loadMap map) := loadMap_confined
    have pinsIn (v : World) : v.PinsIn 0 1 fun _ => True := fun _ _ _ _ => .inr trivial
    rw [List.mapM_cons] at run
    obtain ⟨⟨loaded, w₁⟩, first, run⟩ := Option.bind_eq_some.mp run
    obtain ⟨⟨rest, w₂⟩, others, done⟩ := Option.bind_eq_some.mp run
    cases done
    obtain ⟨allocated₁, confined₁⟩ := each map w allocated (pinsIn w) _ _ first
    obtain ⟨-, confined₂⟩ := mapM_confined each maps w₁ allocated₁ (pinsIn w₁) _ _ others
    intro map' mem
    rcases List.mem_cons.mp mem with rfl | mem
    · obtain ⟨handle, rooted⟩ := loadMap_handle allocated first
      exact ⟨handle.of_confined confined₂, fun roots => (rooted roots).of_confined confined₂⟩
    · obtain ⟨handle, rooted⟩ := loadMaps_handles maps allocated₁ others map' mem
      exact ⟨handle.mono fun id allowed => allowed.elim (fun new => .inl (confined₁.nextId.trans new))
        confined₁.atRoot_new, fun roots => rooted (roots.of_confined confined₁ trivial)⟩

theorem bpfProgLoad_confined (file : String) : ConfinedRun p fresh own unshared (bpfProgLoad file) := by
  have refused (e : Nat) : ConfinedRun p fresh own unshared
      (do let ret ← fail e; pure (ret, (none : Option LoadedObject))) :=
    (fail_confined e).bind fun _ => .pure _
  refine nextOutcome_confined.bind fun
    | some e => refused e
    | none => ConfinedRun.get_bind fun w => ?_
  split
  · exact refused _ w
  · exact ConfinedRun.ite (refused _) (.ite (refused _) ((mapM_confined loadMap_confined _).bind fun _ =>
      (mapM_confined loadProg_confined _).bind fun _ => .pure _)) w

/-- Every handle of an object `bpf_prog_load` loads is open on an object it created or took
over from libbpf's root. A program's is on a new object, created after every map, which the
root does not hold. A map's is on a new object or one the root held; if the root was
unshared, the root pins it at most under the map's name, and only when the map asks to be
pinned there. -/
theorem bpfProgLoad_handles {file : String} {w w' : World} {ret : Int} {obj : LoadedObject}
    (allocated : w.Allocated) (run : bpfProgLoad file w = some ((ret, some obj), w')) :
    (∀ prog ∈ obj.progs, w'.HandleIn (w.nextId ≤ ·) prog.fd ∧ w'.RootedIn (fun _ => False) prog.fd) ∧
      ∀ map ∈ obj.maps, w'.HandleIn (fun id => w.nextId ≤ id ∨ w.AtRoot id) map.fd ∧
        (w.RootsUnshared → w'.RootedIn (fun name => name = map.name ∧ map.pinned = true) map.fd) := by
  rcases bpfProgLoad_spec run with ⟨_, _, ⟨⟩, -⟩ | ⟨-, object, loaded, w₁, -, same, loadedMaps, loadedProgs⟩
  cases same
  have maps : ∀ map, ConfinedRun 0 1 (fun _ => True) True (loadMap map) := loadMap_confined
  have progs : ∀ prog, ConfinedRun 0 1 (fun _ => True) True (loadProg prog) := loadProg_confined
  have pinsIn (v : World) : v.PinsIn 0 1 fun _ => True := fun _ _ _ _ => .inr trivial
  have allocated₀ : World.Allocated { w with outcomes := w.outcomes.tail } := allocated.of_same rfl rfl rfl rfl
  obtain ⟨allocated₁, confined₁⟩ := mapM_confined maps _ _ allocated₀ (pinsIn _) _ _ loadedMaps
  obtain ⟨allocated', confined₂⟩ := mapM_confined progs _ _ allocated₁ (pinsIn _) _ _ loadedProgs
  have kept (path : Path) : w'.pins path = w₁.pins path :=
    (mapM_keepsPins loadProg_keepsPins _ : KeepsPins (fun _ => True) _) w₁ _ _ loadedProgs path trivial
  refine ⟨fun prog mem => ?_, fun map mem => ?_⟩
  · have handle :=
      mapM_opens progs (fun _ _ _ _ => loadProg_opens) _ _ _ _ allocated₁ (pinsIn _) loadedProgs prog mem
    refine ⟨handle.mono fun _ later => confined₁.nextId.trans later, handle.1,
      fun id found => ⟨allocated'.lookup found, fun name root => ?_⟩⟩
    exact absurd (allocated₁.pinned _ id ((kept _).symm.trans root)) (not_lt.mpr (handle.2 id found))
  · obtain ⟨handle, rooted⟩ := loadMaps_handles _ allocated₀ loadedMaps map mem
    exact ⟨handle.of_confined confined₂, fun roots => (rooted roots).of_confined confined₂⟩

theorem forIn_close_confined {α : Type} (fd : α → Int) : ∀ l : List α, ConfinedRun p fresh own unshared
    (forIn l PUnit.unit fun a _ => do close (fd a); pure (ForInStep.yield PUnit.unit) : Sys PUnit)
  | [] => .pure _
  | a :: l => by
    rw [List.forIn_cons]
    exact ((close_confined _).bind fun _ => .pure _).bind fun
      | .done _ => .pure _
      | .yield _ => forIn_close_confined fd l

theorem bpfObjectClose_confined (obj : LoadedObject) : ConfinedRun p fresh own unshared (bpfObjectClose obj) :=
  (forIn_close_confined LoadedProg.fd obj.progs).bind fun _ =>
    (forIn_close_confined LoadedMap.fd obj.maps).bind fun _ => .pure _

/-- Removing the pin libbpf made at its pin root. -/
theorem bpfMapUnpin_confined (map : LoadedMap) : ConfinedRun p fresh own unshared (bpfMapUnpin map) := by
  refine .outcome (fun e => fail_confined e) fun w => ?_
  split
  · exact fail_confined _ w
  · refine .set_bind (fun allocated => allocated.update_pins _ fun _ none => nomatch none)
      (.of_pins rfl rfl rfl rfl (fun path changed => .inl ?_) fun name changed => ?_) (ConfinedRun.pure _ _)
    · rw [update_changed_at changed]
      rfl
    · rw [update_changed_at changed]
      exact Function.update_same _ _ _

/-- `bpf_map__unpin` answers 0 only once libbpf's root no longer pins the map's name. -/
theorem bpfMapUnpin_unpins {map : LoadedMap} {w w' : World} (run : bpfMapUnpin map w = some (0, w')) :
    w'.pins (.root map.name) = none := by
  obtain ⟨⟨outcome, w₁⟩, -, run⟩ := Option.bind_eq_some.mp run
  rcases outcome with _ | e
  · simp only [Sys.bind_apply, Sys.get_apply, Option.some_bind] at run
    cases root : w₁.pins (.root map.name) <;> simp only [root] at run
    · simp [fail, ENOENT] at run
    · cases run
      exact Function.update_same _ _ _
  · simp [fail] at run

/-- Pinning under `p` a handle on a new or own object that libbpf's root does not hold. -/
theorem bpfObjPin_confined {w : World} {fd : Int} {path : Path} (inP : path.pipeline = some p)
    (handle : w.HandleIn (fun id => fresh ≤ id ∨ own id) fd)
    (rooted : unshared → w.RootedIn (fun _ => False) fd) :
    ConfinedFrom p fresh own unshared w (bpfObjPin fd path) := by
  refine .outcome (fun e => fail_confined e) fun w₁ confined => ?_
  have allowed := (handle.of_confined confined).2
  split
  · exact fail_confined _ w₁
  · exact fail_confined _ w₁
  · rename_i id _ found
    refine .set_bind (fun allocated => allocated.update_pins _ ?_)
      (.of_pins rfl rfl rfl rfl (fun path' changed => ?_) fun name changed => ?_) (ConfinedRun.pure _ _)
    · rintro _ ⟨⟩
      exact allocated.lookup found
    · obtain rfl := update_changed_at changed
      refine .inr ⟨inP, fun id' pinned => ?_⟩
      simp only [Function.update_same] at pinned
      cases pinned
      refine ⟨allowed id found, fun holds ⟨name, root⟩ => ?_⟩
      have unmoved : Function.update w₁.pins _ (some id) (.root name) = some id := root
      rw [Function.update_noteq fun same => by rw [← same] at inP; cases inP] at unmoved
      exact (((rooted holds).of_confined confined).2 id found).2 name unmoved
    · obtain rfl := update_changed_at changed
      cases inP

/-- Writing through a handle on an object of `p` or a new one. -/
theorem bpfMapUpdateElem_confined {w : World} {fd : Int}
    (handle : w.HandleIn (fun id => fresh ≤ id ∨ own id) fd) (key : Nat) (value : UserValue) :
    ConfinedFrom p fresh own unshared w (bpfMapUpdateElem fd key value) := by
  refine .outcome (fun e => fail_confined e) fun w₁ confined => ?_
  have allowed := (handle.of_confined confined).2
  dsimp only
  split
  · rename_i mapId info target
    split_ifs
    · exact fail_confined _ w₁
    · split
      · exact fail_confined _ w₁
      · refine .set_bind (fun allocated => allocated.of_same rfl rfl rfl rfl)
          ⟨le_rfl, le_rfl, fun _ _ => .inl rfl, fun _ same => absurd rfl same, fun _ _ same => absurd rfl same,
            fun id changed => ?_⟩
          (ConfinedRun.pure _ _)
        rw [update_changed_at changed]
        obtain ⟨id', found, mapped⟩ := Option.bind_eq_some.mp target
        obtain ⟨_, -, same⟩ := Option.map_eq_some'.mp mapped
        cases same
        exact allowed _ found
  · exact fail_confined _ w₁

end Calls

/-! ## Opening a map -/

section Map

variable {p : Nat} {fresh : ℕ+} {own : ℕ+ → Prop} {unshared : Prop}

theorem updateMapInfo_confined (md : MapDescriptor) : ConfinedRun p fresh own unshared (updateMapInfo md) := by
  refine .ite (.pure _) ((bpfObjGetInfoByFd_confined _).bind fun ⟨_, info⟩ =>
    .ite (getErrno_confined.bind fun _ => .pure _) ?_)
  split <;> exact .pure _

/-- `update_map_info` keeps the descriptor's handle. -/
theorem updateMapInfo_fd {md md' : MapDescriptor} {w w' : World} {e : Int}
    (run : updateMapInfo md w = some ((e, md'), w')) : md'.fd = md.fd := by
  unfold updateMapInfo at run
  split_ifs at run
  · cases run
    rfl
  · obtain ⟨⟨⟨result, info⟩, w₁⟩, -, run⟩ := Option.bind_eq_some.mp run
    dsimp only at run
    split_ifs at run
    · cases run
      rfl
    · split at run <;> cases run <;> rfl

theorem resolveMapTypes_fd {btf : Btf} {name : String} {md md' : MapDescriptor}
    (resolved : resolveMapTypes btf name md = some md') : md'.fd = md.fd := by
  unfold resolveMapTypes at resolved
  obtain ⟨_, -, resolved⟩ := Option.bind_eq_some.mp resolved
  dsimp only at resolved
  split_ifs at resolved
  all_goals
    obtain ⟨_, -, resolved⟩ := Option.bind_eq_some.mp resolved
    obtain ⟨_, -, resolved⟩ := Option.bind_eq_some.mp resolved
    cases resolved
    rfl

theorem openBpfMap_confined (ctx : NikssContext) (name : String) (btf : Option Btf) :
    ConfinedRun p fresh own unshared (openBpfMap ctx name btf) := by
  refine (bpfObjGet_confined _).bind fun fd => .ite (getErrno_confined.bind fun _ => .pure _) ?_
  refine (updateMapInfo_confined _).bind fun ⟨_, md⟩ => .ite (.pure _) ?_
  cases btf with
  | none => exact .pure _
  | some btf => exact (ConfinedRun.liftM _).bind fun _ => .pure _

/-- `open_bpf_map` opens its handle on the map pinned under the context's pipeline, which
for pipeline `p` is one of its own objects or a new one. -/
theorem openBpfMap_opens {ctx : NikssContext} {name : String} {btf : Option Btf} {w w' : World}
    {r : Int × MapDescriptor} (inP : ctx.pipelineId = p) (allocated : w.Allocated)
    (pinsIn : w.PinsIn p fresh own) (run : openBpfMap ctx name btf w = some (r, w')) :
    w'.HandleIn (fun id => fresh ≤ id ∨ own id) r.2.fd := by
  obtain ⟨⟨fd, w₁⟩, opened, run⟩ := Option.bind_eq_some.mp run
  obtain ⟨allocated₁, confined₁⟩ :=
    (bpfObjGet_confined _ : ConfinedRun p fresh own True _) w allocated pinsIn fd w₁ opened
  have handle : w₁.HandleIn (fun id => fresh ≤ id ∨ own id) fd :=
    (bpfObjGet_opens opened).mono fun id pinned => pinsIn _ id (by rw [← inP]; rfl) pinned
  dsimp only at run
  split_ifs at run
  · cases run
    exact handle
  · obtain ⟨⟨⟨e, md⟩, w₂⟩, read, run⟩ := Option.bind_eq_some.mp run
    obtain ⟨-, confined₂⟩ := (updateMapInfo_confined _ : ConfinedRun p fresh own True _) w₁ allocated₁
      (pinsIn.of_confined confined₁) _ w₂ read
    have handle₂ : w₂.HandleIn (fun id => fresh ≤ id ∨ own id) md.fd :=
      (updateMapInfo_fd read).symm ▸ handle.of_confined confined₂
    dsimp only at run
    split_ifs at run
    · cases run
      exact handle₂
    · cases btf with
      | none =>
        cases run
        exact handle₂
      | some btf =>
        obtain ⟨⟨md', w₃⟩, resolved, done⟩ := Option.bind_eq_some.mp run
        obtain ⟨_, found, same⟩ := Option.map_eq_some'.mp ((Sys.liftM_apply w₂ _).symm.trans resolved)
        cases same
        cases done
        exact (resolveMapTypes_fd found).symm ▸ handle₂

end Map

/-! ## The load -/

section Load

variable {p : Nat} {fresh : ℕ+} {own : ℕ+ → Prop} {unshared : Prop} {ctx : NikssContext}

/-- Wiring a partition writes the index table of pipeline `p`. -/
theorem joinTupleToMapIfTuple_confined (inP : ctx.pipelineId = p) (tupleName : String) :
    ConfinedRun p fresh own unshared (joinTupleToMapIfTuple ctx tupleName) := by
  unfold joinTupleToMapIfTuple
  split
  · exact .pure _
  · simp only [pure_bind]
    refine fun w => (openBpfMap_confined _ _ _ w).bind_post
      (fun allocated pinsIn _ _ run => openBpfMap_opens inP allocated pinsIn run)
      fun ⟨_, tupleMap⟩ w₁ handle _ => ?_
    refine .ite (ConfinedRun.pure _ w₁) ((ConfinedRun.liftM _ w₁).bind fun ⟨_, _⟩ w₂ confined₂ => ?_)
    refine .ite (ConfinedRun.pure _ w₂) ((openBpfMap_confined _ _ _ w₂).bind fun ⟨_, _⟩ w₃ confined₃ => ?_)
    exact .ite (ConfinedRun.pure _ w₃) ((bpfMapUpdateElem_confined
      ((handle.of_confined confined₂).of_confined confined₃) _ _).bind fun _ w₄ _ => ConfinedRun.pure _ w₄)

theorem pinPrograms_confined (inP : ctx.pipelineId = p) (ret : Int) :
    ∀ (progs : List LoadedProg) (w : World),
      (∀ prog ∈ progs, w.HandleIn (fresh ≤ ·) prog.fd ∧ w.RootedIn (fun _ => False) prog.fd) →
      ConfinedFrom p fresh own unshared w (pinPrograms ctx ret progs)
  | [], w, _ => ConfinedRun.pure _ w
  | prog :: progs, _, handles =>
    (bpfObjPin_confined (by rw [← inP]; rfl) ((handles prog (.head _)).1.mono fun _ => .inl)
      fun _ => (handles prog (.head _)).2).bind fun ret w₁ confined =>
      .ite (ConfinedRun.pure _ w₁) (pinPrograms_confined inP ret progs w₁ fun prog' mem =>
        ⟨(handles prog' (.tail _ mem)).1.of_confined confined, (handles prog' (.tail _ mem)).2.of_confined confined⟩)

theorem pinMapByName_confined (inP : ctx.pipelineId = p) (ret : Int) (map : LoadedMap) {w : World}
    (handle : w.HandleIn (fun id => fresh ≤ id ∨ own id) map.fd)
    (rooted : unshared → w.RootedIn (fun _ => False) map.fd) :
    ConfinedFrom p fresh own unshared w (pinMapByName ctx ret map) := by
  simp only [pinMapByName, pure_bind]
  refine .ite (ConfinedRun.pure _ w) ((bpfMapSetPinPath_confined w).bind fun _ w₁ confined₁ =>
    .ite (ConfinedRun.pure _ w₁) ?_)
  exact (bpfObjPin_confined (by rw [← inP]; rfl) (handle.of_confined confined₁)
    fun holds => (rooted holds).of_confined confined₁).bind fun _ w₂ _ =>
    .ite (ConfinedRun.pure _ w₂) (((joinTupleToMapIfTuple_confined inP _).bind fun _ =>
      .ite (.pure _) (.pure _)) w₂)

/-- A map's pin, after libbpf's root lets go of it when it pinned the map at load. -/
theorem pinMap_confined (inP : ctx.pipelineId = p) (ret : Int) (map : LoadedMap) {w : World}
    (handle : w.HandleIn (fun id => fresh ≤ id ∨ own id) map.fd)
    (rooted : unshared → w.RootedIn (fun name => name = map.name ∧ map.pinned = true) map.fd) :
    ConfinedFrom p fresh own unshared w (pinMap ctx ret map) := by
  unfold pinMap
  cases pinned : map.pinned
  · simp only [Bool.false_eq_true, ↓reduceIte]
    exact pinMapByName_confined inP ret map handle fun holds =>
      (rooted holds).mono fun _ _ _ named => Bool.false_ne_true (pinned ▸ named.2)
  simp only [↓reduceIte]
  refine (bpfMapUnpin_confined map w).bind_post
    (fun _ _ r w₁ run => show r = 0 → w₁.pins (.root map.name) = none from
      fun zero => bpfMapUnpin_unpins (zero ▸ run))
    fun r w₁ unpinned confined₁ => .by_cases (fun _ => ConfinedRun.pure _ w₁) fun zero => ?_
  refine pinMapByName_confined inP r map (handle.of_confined confined₁) fun holds =>
    ((rooted holds).of_confined confined₁).mono fun name id root named => ?_
  rw [named.1, unpinned (not_not.mp zero)] at root
  cases root

theorem pinMaps_confined (inP : ctx.pipelineId = p) (ret : Int) :
    ∀ (maps : List LoadedMap) (w : World), (∀ map ∈ maps, w.HandleIn (fun id => fresh ≤ id ∨ own id) map.fd ∧
      (unshared → w.RootedIn (fun name => name = map.name ∧ map.pinned = true) map.fd)) →
      ConfinedFrom p fresh own unshared w (pinMaps ctx ret maps)
  | [], w, _ => ConfinedRun.pure _ w
  | map :: maps, _, handles => (pinMap_confined inP ret map (handles map (.head _)).1
      (handles map (.head _)).2).bind fun
    | .error _, w₁, _ => ConfinedRun.pure _ w₁
    | .ok ret, w₁, confined => pinMaps_confined inP ret maps w₁ fun map' mem =>
      ⟨(handles map' (.tail _ mem)).1.of_confined confined,
        fun holds => ((handles map' (.tail _ mem)).2 holds).of_confined confined⟩

theorem initializeMaps_confined (defs : BpfDefs) (ret : Int) :
    ∀ progs, ConfinedRun p fresh own unshared (initializeMaps defs ret progs)
  | [] => .pure _
  | _ :: progs =>
    .ite ((bpfProgTestRun_confined _).bind fun _ =>
      .ite (getErrno_confined.bind fun _ => .pure _) (initializeMaps_confined defs _ progs))
      (initializeMaps_confined defs ret progs)

/-- A load of pipeline `p` is confined to it, the objects it loads being new ones or ones
libbpf's root held, which `own` must allow, and `unshared` the root being unshared when it
starts. -/
theorem nikssPipelineLoad_confined (inP : ctx.pipelineId = p) (defs : BpfDefs) (file : String)
    (w : World) (taken : ∀ id, w.AtRoot id → own id) :
    ConfinedFrom p w.nextId own w.RootsUnshared w (nikssPipelineLoad defs ctx file) := by
  have loaded : w.Allocated → w.PinsIn p w.nextId own → ∀ r w₁, bpfProgLoad file w = some (r, w₁) →
      ∀ obj, r.2 = some obj →
        (∀ prog ∈ obj.progs, w₁.HandleIn (w.nextId ≤ ·) prog.fd ∧ w₁.RootedIn (fun _ => False) prog.fd) ∧
        ∀ map ∈ obj.maps, w₁.HandleIn (fun id => w.nextId ≤ id ∨ own id) map.fd ∧
          (w.RootsUnshared → w₁.RootedIn (fun name => name = map.name ∧ map.pinned = true) map.fd) := by
    rintro allocated - ⟨ret, _⟩ w₁ run obj rfl
    obtain ⟨progs, maps⟩ := bpfProgLoad_handles allocated run
    exact ⟨progs, fun map mem => ⟨(maps map mem).1.mono fun id => Or.imp_right (taken id), (maps map mem).2⟩⟩
  refine (bpfProgLoad_confined file w).bind_post loaded fun ⟨ret, obj⟩ w₁ handles _ => ?_
  rcases obj with _ | obj
  · exact getErrno_confined w₁
  · obtain ⟨progs, maps⟩ := handles obj rfl
    refine .ite (getErrno_confined w₁) (ConfinedFrom.bind ?_ fun _ w₂ _ =>
      ((bpfObjectClose_confined obj).bind fun _ => .pure _) w₂)
    refine (pinPrograms_confined inP ret obj.progs w₁ progs).bind fun
      | .error _, w₂, _ => ConfinedRun.pure _ w₂
      | .ok ret, w₂, confined₂ => ?_
    refine (pinMaps_confined inP ret obj.maps w₂ fun map mem => ⟨(maps map mem).1.of_confined confined₂,
      fun holds => ((maps map mem).2 holds).of_confined confined₂⟩).bind fun
      | .error _, w₃, _ => ConfinedRun.pure _ w₃
      | .ok ret, w₃, _ => ?_
    refine ConfinedRun.bind (initializeMaps_confined defs ret obj.progs) (fun r => ?_) w₃
    rcases r with _ | _ <;> exact .pure _

end Load

/-! ## The unload -/

theorem unpinAll_changed {removed : List Path} {pins : Path → Option ℕ+} {path : Path}
    (changed : unpinAll removed pins path ≠ pins path) : path ∈ removed := by
  by_contra kept
  exact changed (if_neg kept)

/-- An unload of a pipeline removes pins under it and nothing else. -/
theorem nikssPipelineUnload_confined {fresh : ℕ+} {own : ℕ+ → Prop} {unshared : Prop} (ctx : NikssContext)
    (walk : Except Nat (List FtwEntry)) :
    ConfinedRun ctx.pipelineId fresh own unshared (nikssPipelineUnload ctx walk) := by
  intro w allocated _ r w' run
  rcases walk with e | entries
  · rw [nikssPipelineUnload_of_error] at run
    cases run
    exact ⟨allocated.of_same rfl rfl rfl rfl, .of_same rfl rfl rfl rfl rfl⟩
  · obtain ⟨errno, unloaded⟩ := nikssPipelineUnload_apply ctx entries w
    rw [unloaded] at run
    cases run
    refine ⟨⟨allocated.fresh, fun path id pinned => allocated.pinned path id ?_, allocated.opened⟩,
      .of_pins rfl rfl rfl rfl (fun path changed => .inr ⟨?_, fun id pinned => ?_⟩) fun name changed => ?_⟩
    · simp only [unpinAll] at pinned
      split_ifs at pinned
      exact pinned
    · obtain ⟨entry, -, named⟩ := visited_of_mem_removedFiles (unpinAll_changed changed)
      exact FtwEntry.pipeline_path named
    · simp [unpinAll, unpinAll_changed changed] at pinned
    · simp [unpinAll, unpinAll_changed changed]

/-! ## Ports and queries -/

section Ports

variable {p : Nat} {fresh : ℕ+} {own : ℕ+ → Prop} {unshared : Prop} (defs : BpfDefs) {ctx : NikssContext}

theorem xdpAttachProgToPort_confined (ifindex : Int) (prog : String) :
    ConfinedRun p fresh own unshared (xdpAttachProgToPort ctx ifindex prog) := by
  simp only [xdpAttachProgToPort, pure_bind]
  refine (bpfObjGet_confined _).bind fun fd => .ite (getErrno_confined.bind fun _ => .pure _) ?_
  refine (bpfSetLinkXdpFd_confined _ _ _).bind fun _ =>
    .ite (.ite ((closeObjectFd_confined _).bind fun _ => .pure _) (.pure _)) ?_
  exact (bpfSetLinkXdpFd_confined _ _ _).bind fun _ =>
    .ite ((closeObjectFd_confined _).bind fun _ => .pure _) (.pure _)

theorem tcCreateHookAndAttachProgs_confined (ifindex : Int) :
    ConfinedRun p fresh own unshared (tcCreateHookAndAttachProgs defs ctx ifindex) := by
  have attach (prog : String) (point : TcAttachPoint) :
      ConfinedRun p fresh own unshared (tcAttachProg ctx prog ifindex point) := by
    refine (bpfObjGet_confined _).bind fun fd => ?_
    simp only [pure_bind]
    refine .ite (getErrno_confined.bind fun _ => .ite (.pure _) (.pure _)) ?_
    refine (bpfTcAttach_confined _ _ _).bind fun _ => .ite ?_ ((close_confined fd).bind fun _ => .pure _)
    exact getErrno_confined.bind fun _ => (close_confined fd).bind fun _ => .pure _
  refine ((bpfTcHookCreate_confined ifindex).bind fun _ => .ite getErrno_confined (.pure _)).bind
    fun _ => ?_
  simp only [pure_bind]
  exact .ite (.pure _) <| (attach _ _).bind fun _ => .ite (.pure _) <|
    (attach _ _).bind fun _ => .ite (.pure _) (.pure _)

/-- Filling the devmap slot through a handle on a map of `p` or a new one. -/
theorem updateProgDevmap_confined {devmap : MapDescriptor} {w : World}
    (handle : w.HandleIn (fun id => fresh ≤ id ∨ own id) devmap.fd) (ifindex : Int) (intf : String)
    (egressProgFd : Int) : ConfinedFrom p fresh own unshared w (updateProgDevmap devmap ifindex intf egressProgFd) := by
  unfold updateProgDevmap
  lift_lets
  intro progFd capacity index store check
  have stored (y : PUnit) {w₁ : World} (handle₁ : w₁.HandleIn (fun id => fresh ≤ id ∨ own id) devmap.fd) :
      ConfinedFrom p fresh own unshared w₁ (store y) :=
    (bpfMapUpdateElem_confined handle₁ _ _).bind fun _ w₂ _ => ConfinedRun.ite getErrno_confined (.pure _) w₂
  have checked (y : PUnit) {w₁ : World} (handle₁ : w₁.HandleIn (fun id => fresh ≤ id ∨ own id) devmap.fd) :
      ConfinedFrom p fresh own unshared w₁ (check y) :=
    .ite ((crash_confined w₁).bind fun y _ confined => stored y (handle₁.of_confined confined))
      ((ConfinedRun.pure _ w₁).bind fun y _ confined => stored y (handle₁.of_confined confined))
  have warned : w.Confined p fresh own unshared
      { w with stderr := w.stderr ++ [devmapWarning ifindex intf devmap.maxEntries] } :=
    .of_same rfl rfl rfl rfl rfl
  exact .ite (ConfinedFrom.modify_bind (fun allocated => allocated.of_same rfl rfl rfl rfl) warned
    (checked ⟨⟩ (handle.of_confined warned)))
    ((ConfinedRun.pure _ w).bind fun y _ confined => checked y (handle.of_confined confined))

theorem xdpPortAddDevmap_confined (inP : ctx.pipelineId = p) (intf : String) (ifindex : Int) :
    ConfinedRun p fresh own unshared (xdpPortAddDevmap defs ctx intf ifindex) := by
  refine fun w => (bpfObjGet_confined _ w).bind fun _ w₁ _ => ?_
  refine (openBpfMap_confined _ _ _ w₁).bind_post
    (fun allocated pinsIn _ _ run => openBpfMap_opens inP allocated pinsIn run)
    fun ⟨_, devmap⟩ w₂ handle _ => ?_
  dsimp only
  exact .ite (((closeObjectFd_confined _).bind fun _ => .pure _) w₂) <|
    (ConfinedRun.pure _ w₂).bind fun _ _ confined₃ =>
      (updateProgDevmap_confined (handle.of_confined confined₃) _ _ _).bind fun _ w₄ _ =>
        ((closeObjectFd_confined _).bind fun _ => (closeObjectFd_confined _).bind fun _ => .pure _) w₄

theorem xdpPortAddJumpTable_confined (inP : ctx.pipelineId = p) :
    ConfinedRun p fresh own unshared (xdpPortAddJumpTable defs ctx) := by
  refine fun w => (bpfObjGet_confined _ w).bind fun _ w₁ _ => ?_
  simp only [pure_bind]
  refine .ite (ConfinedRun.pure _ w₁) ((openBpfMap_confined _ _ _ w₁).bind_post
    (fun allocated pinsIn _ _ run => openBpfMap_opens inP allocated pinsIn run)
    fun ⟨_, jmpmap⟩ w₂ handle _ => ?_)
  dsimp only
  exact .ite (((closeObjectFd_confined _).bind fun _ => .pure _) w₂) <|
    (bpfMapUpdateElem_confined handle _ _).bind fun _ w₃ _ =>
      (getErrno_confined.bind fun _ => (closeObjectFd_confined _).bind fun _ =>
        (closeObjectFd_confined _).bind fun _ => .ite (.pure _) (.pure _)) w₃

/-- Adding a port to pipeline `p` writes its devmap and jump table only. -/
theorem nikssPipelineAddPort_confined (inP : ctx.pipelineId = p) (interface : String) :
    ConfinedRun p fresh own unshared (nikssPipelineAddPort defs ctx interface) := by
  simp only [nikssPipelineAddPort, pure_bind]
  refine (access_confined _).bind fun _ => (ifNametoindex_confined _).bind fun _ => .ite (.pure _) ?_
  split <;> refine ConfinedRun.bind ?_ fun _ => .pure _
  · simp only [xdpPortAdd, pure_bind]
    refine (xdpAttachProgToPort_confined _ _).bind fun ⟨_, _⟩ => .ite (.pure _) ?_
    refine (closeObjectFd_confined _).bind fun _ =>
      (xdpPortAddDevmap_confined defs inP _ _).bind fun _ => .ite (.pure _) ?_
    refine (xdpPortAddJumpTable_confined defs inP).bind fun
      | some _ => .pure _
      | none => ?_
    exact (tcCreateHookAndAttachProgs_confined defs _).bind fun _ => .ite (.pure _) (.pure _)
  · simp only [tcPortAdd, pure_bind]
    exact (xdpAttachProgToPort_confined _ _).bind fun ⟨_, _⟩ => .ite (.pure _) <|
      (closeObjectFd_confined _).bind fun _ =>
        (tcCreateHookAndAttachProgs_confined defs _).bind fun _ => .ite (.pure _) (.pure _)

theorem nikssPipelineDelPort_confined (interface : String) :
    ConfinedRun p fresh own unshared (nikssPipelineDelPort interface) := by
  simp only [nikssPipelineDelPort, pure_bind]
  refine (ifNametoindex_confined _).bind fun _ => .ite (.pure _) ?_
  refine (bpfSetLinkXdpFd_confined _ _ _).bind fun _ => .ite (.pure _) ?_
  exact (bpfTcHookDestroy_confined _).bind fun _ =>
    .ite (getErrno_confined.bind fun _ => .ite (.pure _) (.pure _)) (.pure _)

theorem openPipelineProgram_confined : ConfinedRun p fresh own unshared (openPipelineProgram defs ctx) :=
  (bpfObjGet_confined _).bind fun _ => .ite (bpfObjGet_confined _) (.pure _)

theorem nikssPortListInit_confined : ConfinedRun p fresh own unshared (nikssPortListInit defs ctx) := by
  simp only [nikssPortListInit, pure_bind]
  refine ifNameindex_confined.bind fun _ => .ite (getErrno_confined.bind fun _ => .pure _) ?_
  refine (openPipelineProgram_confined defs).bind fun _ =>
    .ite (getErrno_confined.bind fun _ => .pure _) ?_
  exact (bpfObjGetInfoByFd_confined _).bind fun ⟨_, _⟩ =>
    .ite (getErrno_confined.bind fun _ => (close_confined _).bind fun _ => .pure _)
      ((close_confined _).bind fun _ => .pure _)

theorem nextPortLoop_confined (xdpProgId : Nat) :
    ∀ (index : Nat) (ifaces : List (Nat × String)),
      ConfinedRun p fresh own unshared (nextPortLoop xdpProgId index ifaces)
  | _, [] => .pure _
  | index, (_, _) :: ifaces => by
    simp only [nextPortLoop, pure_bind]
    exact .ite (.pure _) ((bpfGetLinkXdpId_confined _).bind fun ⟨_, _⟩ =>
      .ite ((nextPortLoop_confined xdpProgId (index + 1) ifaces).bind fun _ => .pure _)
        (.ite (.pure _) (nextPortLoop_confined xdpProgId (index + 1) ifaces)))

theorem nextPorts_confined :
    ∀ (calls : Nat) (list : NikssPortList), ConfinedRun p fresh own unshared (nextPorts calls list)
  | 0, _ => .pure _
  | calls + 1, list => by
    refine ConfinedRun.bind ?_ fun ⟨_, list⟩ =>
      (nextPorts_confined calls list).bind fun ⟨_, _⟩ => .pure _
    unfold nikssPortListGetNextPort
    split
    · exact .pure _
    · exact (nextPortLoop_confined _ _ _).bind fun
        | none => .pure _
        | some _ => .pure _

theorem nikssPipelineGetLoadTimestamp_confined :
    ConfinedRun p fresh own unshared (nikssPipelineGetLoadTimestamp defs ctx) := by
  simp only [nikssPipelineGetLoadTimestamp, pure_bind]
  have clock (read : World → Float) : ConfinedRun p fresh own unshared (do
      match ← nextOutcome with
      | some e => do let _ ← fail e; pure none
      | none => pure (some (read (← get)))) :=
    .outcome (fun e => (fail_confined e).bind fun _ => .pure _) fun w => ConfinedRun.pure _ w
  refine (openPipelineProgram_confined defs).bind fun fd => .ite (.pure _) ?_
  refine (bpfObjGetInfoByFd_confined _).bind fun ⟨_, _⟩ => ?_
  have done (n : Nat) : ConfinedRun p fresh own unshared (do close fd; pure n : Sys Nat) :=
    (close_confined fd).bind fun _ => .pure _
  exact .ite (done 0) ((clock World.uptime).bind fun
    | none => done 0
    | some _ => (clock World.wallClock).bind fun
      | none => done 0
      | some _ => done _)

end Ports

/-! ## Any run of operations -/

/-- The pipeline an operation is addressed to. -/
def Op.pipeline : Op → Nat
  | .load ctx _ | .unload ctx _ | .addPort ctx _ | .delPort ctx _ | .listPorts ctx _
  | .getLoadTimestamp ctx | .openMap ctx _ _ => ctx.pipelineId

/-- An operation is confined to the pipeline it is addressed to: the objects it creates are
the new ones, the objects it may take are those pinned under that pipeline or at libbpf's
root, and the root counts as unshared when it was so at the start. -/
theorem Op.run_confined (defs : BpfDefs) (op : Op) (w : World) :
    ConfinedFrom op.pipeline w.nextId (fun id => w.OwnedBy op.pipeline id ∨ w.AtRoot id) w.RootsUnshared w
      (op.run defs) := by
  cases op with
  | load ctx file =>
    exact (nikssPipelineLoad_confined rfl defs file w fun _ => .inr).bind fun _ w₁ _ => ConfinedRun.pure _ w₁
  | unload ctx walk => exact ((nikssPipelineUnload_confined ctx walk).bind fun _ => .pure _) w
  | addPort ctx interface =>
    exact ((nikssPipelineAddPort_confined defs rfl interface).bind fun _ => .pure _) w
  | delPort ctx interface => exact ((nikssPipelineDelPort_confined interface).bind fun _ => .pure _) w
  | listPorts ctx calls =>
    exact ((nikssPortListInit_confined defs).bind fun ⟨_, _⟩ =>
      .ite ((nextPorts_confined _ _).bind fun _ => .pure _) (.pure _)) w
  | getLoadTimestamp ctx =>
    exact ((nikssPipelineGetLoadTimestamp_confined defs).bind fun _ => .pure _) w
  | openMap ctx name btf => exact ((openBpfMap_confined ctx name btf).bind fun _ => .pure _) w

theorem World.boot_allocated (files : String → Option ObjectFile) (links : List (Nat × String))
    (ifaces : Nat → Iface) (outcomes : List (Option ℕ+)) :
    (World.boot files links ifaces outcomes).Allocated :=
  ⟨fun _ _ => rfl, fun _ _ pinned => (nomatch pinned), fun _ _ opened => (nomatch opened)⟩

theorem World.boot_owned (files : String → Option ObjectFile) (links : List (Nat × String))
    (ifaces : Nat → Iface) (outcomes : List (Option ℕ+)) : (World.boot files links ifaces outcomes).Owned :=
  ⟨fun _ _ _ _ _ pinned => (nomatch pinned), fun _ _ _ pinned => (nomatch pinned)⟩

section Invariant

variable {p : Nat} {fresh : ℕ+} {own : ℕ+ → Prop} {unshared : Prop} {w w' : World}

/-- A pin after a confined run is one from before, or one under `p` naming a new or own
object. -/
theorem World.Confined.pin_origin (confined : w.Confined p fresh own unshared w') {path : Path} {q : Nat}
    {id : ℕ+} (named : path.pipeline = some q) (pinned : w'.pins path = some id) :
    w.pins path = some id ∨ q = p ∧ (fresh ≤ id ∨ own id) := by
  by_cases same : w'.pins path = w.pins path
  · exact .inl (same ▸ pinned)
  · rcases confined.pins path same with root | ⟨inP, created⟩
    · exact absurd (named.symm.trans root) (Option.some_ne_none q)
    · exact .inr ⟨Option.some.inj (named.symm.trans inP), (created id pinned).1⟩

/-- An object pinned under pipeline `q` that is new, pinned under `p` or held by libbpf's
root is `p`'s: `q = p`. -/
theorem World.Owned.pipeline_eq (allocated : w.Allocated) (owned : w.Owned) {path : Path} {q : Nat}
    {id : ℕ+} (named : path.pipeline = some q) (pinned : w.pins path = some id)
    (origin : w.nextId ≤ id ∨ w.OwnedBy p id ∨ w.AtRoot id) : q = p := by
  rcases origin with new | ⟨path', inP, pinned'⟩ | ⟨name, rooted⟩
  · exact absurd (allocated.pinned path id pinned) (not_lt.mpr new)
  · exact owned.pipelines path path' id q p pinned pinned' named inP
  · obtain rfl := owned.roots name id path rooted pinned
    cases named

/-- A confined run keeps every object with one owner. -/
theorem World.Owned.of_confined (allocated : w.Allocated) (owned : w.Owned)
    (confined : w.Confined p w.nextId (fun id => w.OwnedBy p id ∨ w.AtRoot id) w.RootsUnshared w') :
    w'.Owned := by
  refine ⟨fun path path' id q q' pinned pinned' named named' => ?_, owned.roots.of_confined confined owned.roots⟩
  rcases confined.pin_origin named pinned with old | ⟨rfl, origin⟩ <;>
    rcases confined.pin_origin named' pinned' with old' | ⟨rfl, origin'⟩
  · exact owned.pipelines path path' id q q' old old' named named'
  · exact owned.pipeline_eq allocated named old origin'
  · exact (owned.pipeline_eq allocated named' old' origin).symm
  · rfl

/-- A run confined to `p` leaves another pipeline's objects pinned where they were and their
contents as they were. -/
theorem World.Confined.keeps_other (allocated : w.Allocated) (owned : w.Owned)
    (confined : w.Confined p w.nextId (fun id => w.OwnedBy p id ∨ w.AtRoot id) w.RootsUnshared w')
    {q : Nat} (other : p ≠ q) {path : Path} {id : ℕ+} (named : path.pipeline = some q)
    (pinned : w.pins path = some id) : w'.pins path = some id ∧ w'.elems id = w.elems id := by
  refine ⟨by_contra fun changed => ?_, by_contra fun changed => ?_⟩
  · rcases confined.pins path (pinned ▸ changed) with root | ⟨inP, -⟩
    · exact absurd (named.symm.trans root) (Option.some_ne_none q)
    · exact other (Option.some.inj (inP.symm.trans named))
  · exact other (owned.pipeline_eq allocated named pinned (confined.elems id changed)).symm

end Invariant

/-- The ownership invariant over whole runs. Start from a state where every pin and every
open handle names a created object, the handles from `nextFd` on are free, and every pinned
object has one owner: no object is pinned under two pipelines, and an object pinned at
libbpf's root is pinned nowhere else. Every run of operations, in any order, addressed to
any pipelines and whatever the kernel answers, ends in such a state. -/
theorem runOps_owned (defs : BpfDefs) :
    ∀ (ops : List Op) {w w' : World}, w.Allocated → w.Owned → runOps defs ops w = some ((), w') →
      w'.Allocated ∧ w'.Owned
  | [], _, _, allocated, owned, run => by
    cases run
    exact ⟨allocated, owned⟩
  | op :: ops, w, _, allocated, owned, run => by
    obtain ⟨⟨_, w₁⟩, ran, rest⟩ := Option.bind_eq_some.mp run
    obtain ⟨allocated₁, confined⟩ := Op.run_confined defs op w allocated
      (fun path id named pinned => .inr (.inl ⟨path, named, pinned⟩)) _ w₁ ran
    exact runOps_owned defs ops allocated₁ (owned.of_confined allocated confined) rest

set_option maxRecDepth 4000 in
set_option smartUnfolding false in
/-- `runOps_owned` from a booted kernel, over the loads of two pipelines from one object
file with one program, whose index table libbpf pins at its root, and the unload of the
first pipeline's maps. -/
theorem runOps_owned_over_two_loads :
    let defs : BpfDefs := ⟨"tc-ingress", "tc-egress", "xdp-ingress", "xdp-egress",
      "xdp-egress-optimized", "xdp-helper", "tc-init", "xdp-init", "devmap", "jump-table", by decide⟩
    let obj : ObjectFile := ⟨[⟨"xdp-ingress"⟩], [⟨"t_tuples_map", ⟨12, 4, 4, 4, 0, 0⟩, true⟩,
      ⟨"t_tuple_0", ⟨1, 4, 4, 16, 0, 0⟩, false⟩]⟩
    let w := World.boot (fun file => if file = "p.o" then some obj else none) [] (fun _ => .bare false) []
    let ops : List Op := [.load ⟨1⟩ "p.o", .load ⟨2⟩ "p.o",
      .unload ⟨1⟩ (.ok [.map "t_tuples_map", .map "t_tuple_0", .directory])]
    ∃ w', runOps defs ops w = some ((), w') ∧ w'.Allocated ∧ w'.Owned := by
  intro defs obj w ops
  have allocated : w.Allocated := World.boot_allocated _ _ _ _
  have owned : w.Owned := World.boot_owned _ _ _ _
  exact ⟨_, rfl, runOps_owned defs ops allocated owned rfl⟩

/-- Pipelines do not write each other's maps. From a state where the ownership invariant
holds, over any run of operations none of which is addressed to pipeline `q`, whatever the
kernel answers, every object pinned under `q` stays pinned there and keeps its contents:
a port added to, a map opened in, or a pipeline loaded or unloaded beside `q` writes only
maps of its own pipeline, maps it took over from libbpf's root, or maps it created. -/
theorem runOps_keeps_contents (defs : BpfDefs) (q : Nat) :
    ∀ (ops : List Op) {w w' : World}, (∀ op ∈ ops, op.pipeline ≠ q) → w.Allocated → w.Owned →
      runOps defs ops w = some ((), w') → ∀ path id, path.pipeline = some q →
        w.pins path = some id → w'.pins path = some id ∧ w'.elems id = w.elems id
  | [], _, _, _, _, _, run, _, _, _, pinned => by
    cases run
    exact ⟨pinned, rfl⟩
  | op :: ops, w, _, others, allocated, owned, run, path, id, named, pinned => by
    obtain ⟨⟨_, w₁⟩, ran, rest⟩ := Option.bind_eq_some.mp run
    obtain ⟨allocated₁, confined⟩ := Op.run_confined defs op w allocated
      (fun path id named pinned => .inr (.inl ⟨path, named, pinned⟩)) _ w₁ ran
    obtain ⟨pinned₁, kept₁⟩ := confined.keeps_other allocated owned (others op (List.mem_cons_self _ _))
      named pinned
    obtain ⟨pinned', kept'⟩ := runOps_keeps_contents defs q ops
      (fun op' mem => others op' (List.mem_cons_of_mem op mem)) allocated₁
      (owned.of_confined allocated confined) rest path id named pinned₁
    exact ⟨pinned', kept'.trans kept₁⟩

set_option maxRecDepth 4000 in
set_option smartUnfolding false in
/-- `runOps_keeps_contents` for the index table `t_tuples_map` of pipeline 2, holding a
partition at key 0, while pipeline 1 loads an object with one program and a table of the
same name and wires its partition into it, opens that table, and pipeline 3 is asked for a
port. -/
theorem runOps_keeps_contents_beside_a_load :
    let defs : BpfDefs := ⟨"tc-ingress", "tc-egress", "xdp-ingress", "xdp-egress",
      "xdp-egress-optimized", "xdp-helper", "tc-init", "xdp-init", "devmap", "jump-table", by decide⟩
    let obj : ObjectFile := ⟨[⟨"xdp-ingress"⟩], [⟨"t_tuples_map", ⟨12, 4, 4, 4, 0, 0⟩, false⟩,
      ⟨"t_tuple_0", ⟨1, 4, 4, 16, 0, 0⟩, false⟩]⟩
    let w : World :=
      { World.boot (fun file => if file = "p.o" then some obj else none) [(3, "eth0")]
          (fun _ => .bare false) [] with
        pins := fun path => if path = .map 2 "t_tuples_map" then some 1 else none
        objects := fun id => if id = 1 then some (.map ⟨12, 4, 4, 4, 0, 0⟩) else none
        elems := fun id key => if id = 1 ∧ key = 0 then some (.obj 1) else none
        nextId := 2 }
    let ops : List Op := [.load ⟨1⟩ "p.o", .openMap ⟨1⟩ "t_tuples_map" none, .addPort ⟨3⟩ "eth0"]
    w.Allocated ∧ w.Owned ∧ ∃ w', runOps defs ops w = some ((), w') ∧
      w'.pins (.map 2 "t_tuples_map") = some 1 ∧ w'.elems 1 = w.elems 1 := by
  intro defs obj w ops
  have allocated : w.Allocated := by
    refine ⟨fun _ _ => rfl, fun path id pinned => ?_, fun _ _ opened => (nomatch opened)⟩
    simp only [w] at pinned
    split_ifs at pinned
    cases pinned
    decide
  have owned : w.Owned := by
    refine ⟨fun path path' id q q' pinned pinned' named named' => ?_, fun name id path rooted _ => ?_⟩
    · simp only [w] at pinned pinned'
      split_ifs at pinned pinned' with first second
      subst first second
      exact Option.some.inj (named.symm.trans named')
    · simp [w] at rooted
  exact ⟨allocated, owned, _, rfl,
    runOps_keeps_contents defs 2 ops (by decide) allocated owned rfl _ _ rfl rfl⟩

end Nikss

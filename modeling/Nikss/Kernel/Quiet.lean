import Nikss.Map.Open

/-! # Calls when nothing outside fails

Once the outcome sequence is used up (`w.outcomes = []`), every call does what the state
says. The lemmas here give each call's result then, so that a proof about a whole
operation cites them and never unfolds a call.

`World.Grows w w'` is what a call leaves alone: the outcome sequence, the kernel objects,
and every handle open before it. A call opens its handles at `nextFd`, so this needs the
handles from `nextFd` on to be free (`World.FreshFds`), as they are in a process that
only ever opens handles through these calls.
-/

namespace Nikss

/-- Every handle from `nextFd` on is free. -/
def World.FreshFds (w : World) : Prop := ∀ n, w.nextFd ≤ n → w.fds n = none

/-- What a call keeps: the outcome sequence, the objects, and every open handle. -/
structure World.Grows (w w' : World) : Prop where
  outcomes : w'.outcomes = w.outcomes
  objects : w'.objects = w.objects
  fresh : w.FreshFds → w'.FreshFds
  lookup : w.FreshFds → ∀ {fd id}, w.lookupFd fd = some id → w'.lookupFd fd = some id

namespace World

variable {w w₁ w₂ : World}

theorem Grows.refl (w : World) : w.Grows w := ⟨rfl, rfl, id, fun _ _ _ found => found⟩

theorem Grows.trans (first : w.Grows w₁) (second : w₁.Grows w₂) : w.Grows w₂ where
  outcomes := second.outcomes.trans first.outcomes
  objects := second.objects.trans first.objects
  fresh fresh := second.fresh (first.fresh fresh)
  lookup fresh _ _ found := second.lookup (first.fresh fresh) (first.lookup fresh found)

/-- Setting `errno`, the pins or the map contents keeps what `Grows` asks for. -/
theorem grows_of_fds (outcomes : w₁.outcomes = w.outcomes) (objects : w₁.objects = w.objects)
    (fds : w₁.fds = w.fds) (nextFd : w₁.nextFd = w.nextFd) : w.Grows w₁ where
  outcomes := outcomes
  objects := objects
  fresh fresh n bound := fds ▸ fresh n (nextFd ▸ bound)
  lookup _ fd _ found := by simpa only [lookupFd, fds] using found

@[simp] theorem lookupFd_withHandle_self (id : ℕ+) : (w.withHandle id).lookupFd w.nextFd = some id := by
  simp [lookupFd, withHandle, Int.natCast_nonneg]

theorem grows_withHandle (id : ℕ+) : w.Grows (w.withHandle id) where
  outcomes := rfl
  objects := rfl
  fresh fresh n bound := by
    simp only [withHandle] at bound ⊢
    rw [Function.update_noteq (by omega)]
    exact fresh n (by omega)
  lookup fresh fd _ found := by
    have valid : 0 ≤ fd := by by_contra negative; simp [lookupFd, negative] at found
    have taken : fd.toNat ≠ w.nextFd := fun same => by
      simp [lookupFd, valid, same, fresh w.nextFd le_rfl] at found
    simpa [lookupFd, withHandle, valid, Function.update_noteq taken] using found

/-- An open handle lies below `nextFd`. -/
theorem lookupFd_lt (fresh : w.FreshFds) {fd : Int} {id : ℕ+} (found : w.lookupFd fd = some id) :
    0 ≤ fd ∧ fd.toNat < w.nextFd := by
  have valid : 0 ≤ fd := by by_contra negative; simp [lookupFd, negative] at found
  refine ⟨valid, Nat.lt_of_not_le fun past => ?_⟩
  simp [lookupFd, valid, fresh _ past] at found

end World

section Quiet

variable {w : World} (quiet : w.outcomes = [])
include quiet

theorem nextOutcome_quiet : nextOutcome w = some (none, w) := by simp [nextOutcome, quiet]

theorem bpfObjGet_quiet (path : Path) :
    bpfObjGet path w = match w.pins path with
      | none => some (-(ENOENT : Int), { w with errno := ENOENT })
      | some id => some (w.nextFd, w.withHandle id) := by
  simp only [bpfObjGet, Sys.bind_apply, nextOutcome_quiet quiet, Option.some_bind, Sys.get_apply]
  cases w.pins path <;> rfl

theorem bpfObjGetInfoByFd_quiet (fd : Int) :
    bpfObjGetInfoByFd fd w = match (w.lookupFd fd).bind fun id => (w.objects id).map (id, ·) with
      | none => some ((-(EBADF : Int), none), { w with errno := EBADF })
      | some found => some ((0, some found), w) := by
  simp only [bpfObjGetInfoByFd, Sys.bind_apply, nextOutcome_quiet quiet, Option.some_bind,
    Sys.get_apply]
  cases w.lookupFd fd with
  | none => rfl
  | some id => simp only [Option.some_bind]; cases w.objects id <;> rfl

theorem bpfObjPin_quiet {fd : Int} {id : ℕ+} (found : w.lookupFd fd = some id) (path : Path) :
    bpfObjPin fd path w = match w.pins path with
      | some _ => some (-(EEXIST : Int), { w with errno := EEXIST })
      | none => some (0, { w with pins := Function.update w.pins path (some id) }) := by
  simp only [bpfObjPin, Sys.bind_apply, nextOutcome_quiet quiet, Option.some_bind, Sys.get_apply,
    found]
  cases w.pins path <;> rfl

theorem bpfMapUnpin_quiet (map : LoadedMap) :
    bpfMapUnpin map w = match w.pins (.root map.name) with
      | none => some (-(ENOENT : Int), { w with errno := ENOENT })
      | some _ => some (0, { w with pins := Function.update w.pins (.root map.name) none }) := by
  simp only [bpfMapUnpin, Sys.bind_apply, nextOutcome_quiet quiet, Option.some_bind, Sys.get_apply]
  cases w.pins (.root map.name) <;> rfl

theorem access_quiet (path : Path) :
    access path w = match w.pins path with
      | none => some (-(ENOENT : Int), { w with errno := ENOENT })
      | some _ => some (0, w) := by
  simp only [access, Sys.bind_apply, nextOutcome_quiet quiet, Option.some_bind, Sys.get_apply]
  cases w.pins path <;> rfl

theorem bpfTcHookDestroy_quiet (ifindex : Int) :
    bpfTcHookDestroy ifindex w =
      if (w.iface ifindex).clsact then
        some (0, w.setIface ifindex { w.iface ifindex with clsact := false, tcIngress := [], tcEgress := [] })
      else some (-(ENOENT : Int), { w with errno := ENOENT }) := by
  simp only [bpfTcHookDestroy, Sys.bind_apply, nextOutcome_quiet quiet, Option.some_bind, Sys.get_apply]
  split_ifs <;> rfl

theorem bpfMapUpdateElem_quiet {fd : Int} {mapId : ℕ+} {info : MapInfo}
    (mapOpen : w.lookupFd fd = some mapId) (isMap : w.objects mapId = some (.map info))
    (key : Nat) (value : UserValue) :
    bpfMapUpdateElem fd key value w =
      if info.IsArray ∧ info.maxEntries ≤ key then some (-(E2BIG : Int), { w with errno := E2BIG })
      else match w.resolveValue value with
        | none => some (-(EBADF : Int), { w with errno := EBADF })
        | some stored => some (0, { w with
            elems := Function.update w.elems mapId (Function.update (w.elems mapId) key (some stored)) }) := by
  simp only [bpfMapUpdateElem, Sys.bind_apply, nextOutcome_quiet quiet, Option.some_bind,
    Sys.get_apply, mapOpen, isMap, Option.map_some']
  split_ifs
  · rfl
  · cases w.resolveValue value <;> rfl

theorem bpfMapSetPinPath_quiet : bpfMapSetPinPath w = some (0, w) := by
  simp [bpfMapSetPinPath, nextOutcome_quiet quiet]

theorem bpfProgTestRun_quiet {fd : Int} (opened : (w.lookupFd fd).isSome) :
    bpfProgTestRun fd w = some (0, w) := by
  simp [bpfProgTestRun, nextOutcome_quiet quiet, Option.ne_none_iff_isSome.mpr opened]

end Quiet

/-! ## Opening a map without BTF -/

/-- What `open_bpf_map` answers when nothing outside fails: `ENOENT` for a path nothing
is pinned at, `EBADF` when the object behind the pin is gone. -/
def World.openStatus (w : World) (path : Path) : Int :=
  match w.pins path with
  | none => ENOENT
  | some id => if (w.objects id).isSome then NO_ERROR else EBADF

theorem World.openStatus_eq_noError {w : World} {path : Path} :
    w.openStatus path = NO_ERROR ↔ ∃ id, w.pins path = some id ∧ (w.objects id).isSome := by
  unfold World.openStatus
  cases w.pins path with
  | none => simp [ENOENT, NO_ERROR]
  | some id => by_cases found : (w.objects id).isSome <;> simp [found, EBADF, NO_ERROR]

/-- An open that fails reaches no object. -/
theorem World.bind_open_of_failed {w : World} {path : Path} (failed : w.openStatus path ≠ NO_ERROR)
    {β : Type} (f : ℕ+ → Option β) :
    ((w.pins path).bind fun id => (w.objects id).bind fun _ => f id) = none := by
  rw [Ne, openStatus_eq_noError, not_exists] at failed
  cases pinned : w.pins path with
  | none => rfl
  | some id =>
    have gone : w.objects id = none := by simpa [pinned] using failed id
    simp [gone]

/-- `open_bpf_map` without BTF, when nothing outside fails, answers `openStatus`, changes
neither pins nor maps, and on success hands back a handle on the pinned object. -/
theorem openBpfMap_quiet {w : World} (quiet : w.outcomes = [])
    (ctx : NikssContext) (name : String) :
    ∃ md w', openBpfMap ctx name none w =
        some ((w.openStatus (buildEbpfMapFilename ctx name), md), w') ∧
      w'.pins = w.pins ∧ w'.elems = w.elems ∧ w.Grows w' ∧
      (w.openStatus (buildEbpfMapFilename ctx name) = NO_ERROR →
        w'.lookupFd md.fd = w.pins (buildEbpfMapFilename ctx name)) := by
  cases pinned : w.pins (buildEbpfMapFilename ctx name) with
  | none =>
    refine ⟨.ofFd (-(ENOENT : Int)), { w with errno := ENOENT }, ?_, rfl, rfl,
      World.grows_of_fds rfl rfl rfl rfl, by simp [World.openStatus, pinned, ENOENT, NO_ERROR]⟩
    simp [openBpfMap, bpfObjGet_quiet quiet, pinned, World.openStatus, getErrno, ENOENT]
  | some id =>
    have opened : (w.withHandle id).outcomes = [] := quiet
    have valid : (0 : Int) ≤ w.nextFd := Int.natCast_nonneg _
    have grows := World.grows_withHandle (w := w) id
    cases found : w.objects id with
    | none =>
      refine ⟨.ofFd w.nextFd, { w.withHandle id with errno := EBADF }, ?_, rfl, rfl,
        grows.trans (World.grows_of_fds rfl rfl rfl rfl), by simp [World.openStatus, pinned, found, EBADF, NO_ERROR]⟩
      simp [openBpfMap, bpfObjGet_quiet quiet, pinned, updateMapInfo, World.openStatus, found,
        bpfObjGetInfoByFd_quiet opened, getErrno, MapDescriptor.ofFd, not_lt.mpr valid,
        EBADF, NO_ERROR]
    | some object =>
      cases object with
      | prog loadTime =>
        refine ⟨{ MapDescriptor.ofFd w.nextFd with keyTypeId := 0, valueTypeId := 0 },
          w.withHandle id, ?_, rfl, rfl, grows, fun _ => by simp [pinned, MapDescriptor.ofFd]⟩
        simp [openBpfMap, bpfObjGet_quiet quiet, pinned, updateMapInfo, World.openStatus, found,
          bpfObjGetInfoByFd_quiet opened, MapDescriptor.ofFd, not_lt.mpr valid]
      | map info =>
        refine ⟨⟨w.nextFd, info.type, info.keySize, info.valueSize, info.maxEntries,
          info.btfKeyTypeId, info.btfValueTypeId, 0, 0⟩, w.withHandle id, ?_, rfl, rfl, grows,
          fun _ => by simp [pinned]⟩
        simp [openBpfMap, bpfObjGet_quiet quiet, pinned, updateMapInfo, World.openStatus, found,
          bpfObjGetInfoByFd_quiet opened, MapDescriptor.ofFd, not_lt.mpr valid]

end Nikss

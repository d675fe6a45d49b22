import Nikss.Port.Attach

/-! # Listing ports

`nikss_port_list_init` records the id of the pipeline's XDP program (the helper when it
opens, the XDP ingress program otherwise) and the interface table;
`nikss_port_list_get_next_port` walks the table from its cursor to the next interface
whose XDP program, as `bpf_get_link_xdp_id` reports it, is that one. At the end of the
table it answers NULL and moves the cursor back to the start.

`nikssPortListGetNextPort_lists_running_ports` shows the successive calls on a list as
built return exactly the ordered filter of the table by the query's answer, then NULL.

`nikss_pipeline_get_load_timestamp` opens the same program and dates its load.
-/

namespace Nikss

/-- `nikss_port_list_t`: the table of `if_nameindex` (its `{0, NULL}` end is the end of
the list), the index of the current entry, and the pipeline's program id. -/
structure NikssPortList where
  ifaceList : Option (List (Nat × String))
  currentIface : Option Nat
  xdpProgId : Nat
  deriving DecidableEq, Repr

/-- The object id `bpf_obj_get_info_by_fd` reports, 0 when the call failed. -/
def infoId : Option (ℕ+ × KObject) → Nat
  | some (id, _) => id
  | none => 0

/-- Open the helper, and the XDP ingress program when the helper does not open. -/
def openPipelineProgram (defs : BpfDefs) (ctx : NikssContext) : Sys Int := do
  let fd ← openProgByName ctx defs.xdpHelperProg
  if fd < 0 then openProgByName ctx defs.xdpIngressProg else pure fd

/-- `nikss_port_list_init`. -/
def nikssPortListInit (defs : BpfDefs) (ctx : NikssContext) : Sys (Int × NikssPortList) := do
  let ifaceList ← ifNameindex
  let list : NikssPortList := ⟨ifaceList, none, 0⟩
  if ifaceList.isNone then return (← getErrno, list)
  let fd ← openPipelineProgram defs ctx
  if fd < 0 then return (← getErrno, list)
  let (result, info) ← bpfObjGetInfoByFd fd
  if result ≠ 0 then
    let ret ← getErrno
    close fd
    return (ret, list)
  close fd
  pure (NO_ERROR, { list with xdpProgId := infoId info })

/-- The `while (!iface_found)` loop of `nikss_port_list_get_next_port` over the entries
from `index` on: the index and the entry of the next interface running program
`xdpProgId`, `none` at the end of the table. -/
def nextPortLoop (xdpProgId : Nat) (index : Nat) :
    List (Nat × String) → Sys (Option (Nat × Nat × String))
  | [] => pure none
  | (ifindex, name) :: ifaces => do
    if ifindex = 0 then return none
    let (ret, progId) ← bpfGetLinkXdpId (uint32ToInt ifindex)
    if ret ≠ 0 ∨ progId = 0 then return ← nextPortLoop xdpProgId (index + 1) ifaces
    if progId = xdpProgId then return some (index, ifindex, name)
    nextPortLoop xdpProgId (index + 1) ifaces

/-- `nikss_port_list_get_next_port`: the port found and the list with its cursor moved. -/
def nikssPortListGetNextPort (list : NikssPortList) :
    Sys (Option (Nat × String) × NikssPortList) := do
  match list.ifaceList with
  | none => pure (none, list)
  | some ifaces =>
    let start := match list.currentIface with
      | none => 0
      | some index => index + 1
    match ← nextPortLoop list.xdpProgId start (ifaces.drop start) with
    | none => pure (none, { list with currentIface := none })
    | some (index, port) => pure (some port, { list with currentIface := some index })

/-! ## The listing as an ordered filter

Each query of `bpf_get_link_xdp_id` uses one outcome of the world's sequence, so along
successive calls the entries of the table meet the outcomes in table order. The ports a
caller receives are the entries whose query answers the pipeline's program
(`portsRunning`); one lemma gives the loop from a cursor (`nextPortLoop_spec`), and the run
of calls follows by induction on the ports still to come (`nextPorts_from_cursor`).
-/

/-- A query answer the iterator accepts: the call succeeded and reported the nonzero
program id `xdpProgId`. -/
def AnswersProgram (xdpProgId : Nat) (answer : Int × Nat) : Prop :=
  answer.1 = 0 ∧ answer.2 ≠ 0 ∧ answer.2 = xdpProgId

instance (xdpProgId : Nat) (answer : Int × Nat) : Decidable (AnswersProgram xdpProgId answer) :=
  inferInstanceAs (Decidable (answer.1 = 0 ∧ answer.2 ≠ 0 ∧ answer.2 = xdpProgId))

/-- The entries of `table` whose query answers the program `xdpProgId`, in table order, the
query of each entry meeting the next outcome of `outcomes`. -/
def portsRunning (xdpProgId : Nat) (iface : Int → Iface) :
    List (Option ℕ+) → List (Nat × String) → List (Nat × String)
  | _, [] => []
  | outcomes, (ifindex, name) :: table =>
    if AnswersProgram xdpProgId (linkXdpAnswer outcomes.head?.join (iface (uint32ToInt ifindex)))
    then (ifindex, name) :: portsRunning xdpProgId iface outcomes.tail table
    else portsRunning xdpProgId iface outcomes.tail table

/-- The filter keeps entries in order, each at most once. -/
theorem portsRunning_sublist (xdpProgId : Nat) (iface : Int → Iface) :
    ∀ (outcomes : List (Option ℕ+)) (table : List (Nat × String)),
      (portsRunning xdpProgId iface outcomes table).Sublist table
  | _, [] => .slnil
  | outcomes, (ifindex, name) :: table => by
    unfold portsRunning
    split_ifs
    · exact (portsRunning_sublist xdpProgId iface outcomes.tail table).cons₂ _
    · exact (portsRunning_sublist xdpProgId iface outcomes.tail table).cons _

/-- No answer names the program id 0. -/
theorem portsRunning_of_zero (iface : Int → Iface) :
    ∀ (outcomes : List (Option ℕ+)) (table : List (Nat × String)), portsRunning 0 iface outcomes table = []
  | _, [] => rfl
  | outcomes, (ifindex, name) :: table => by
    rw [portsRunning, if_neg fun answers => answers.2.1 answers.2.2,
      portsRunning_of_zero iface outcomes.tail table]

/-- One turn of the loop on an interface of the table. -/
theorem nextPortLoop_cons {xdpProgId index ifindex : Nat} {name : String}
    {ifaces : List (Nat × String)} {w w₁ : World} {answer : Int × Nat} (nonzero : ifindex ≠ 0)
    (query : bpfGetLinkXdpId (uint32ToInt ifindex) w = some (answer, w₁)) :
    nextPortLoop xdpProgId index ((ifindex, name) :: ifaces) w =
      if AnswersProgram xdpProgId answer then some (some (index, ifindex, name), w₁)
      else nextPortLoop xdpProgId (index + 1) ifaces w₁ := by
  obtain ⟨ret, progId⟩ := answer
  simp only [nextPortLoop, nonzero, if_false, Sys.bind_apply, Sys.pure_apply, Option.some_bind, query,
    AnswersProgram]
  by_cases failed : ret ≠ 0 ∨ progId = 0
  · rw [if_pos failed, if_neg (by omega)]
    simp
  · rw [if_neg failed]
    by_cases found : progId = xdpProgId
    · rw [if_pos found, if_pos (by omega)]; rfl
    · rw [if_neg found, if_neg (by omega)]; simp

/-- From entry `index` on, the loop returns the first entry of the filter with its index,
and the filter from the entry after it is the rest of the filter; with the filter empty it
reaches the end of the table. No interface changes. -/
theorem nextPortLoop_spec (xdpProgId : Nat) :
    ∀ (ifaces : List (Nat × String)) (index : Nat) (w : World), (∀ entry ∈ ifaces, 1 ≤ entry.1) →
    ∃ r w', nextPortLoop xdpProgId index ifaces w = some (r, w') ∧ w'.iface = w.iface ∧
      match portsRunning xdpProgId w.iface w.outcomes ifaces with
      | [] => r = none
      | port :: ports => ∃ skipped, r = some (index + skipped, port) ∧
          portsRunning xdpProgId w'.iface w'.outcomes (ifaces.drop (skipped + 1)) = ports
  | [], _, w, _ => ⟨none, w, rfl, rfl, rfl⟩
  | (ifindex, name) :: ifaces, index, w, indexed => by
    have nonzero : ifindex ≠ 0 := Nat.one_le_iff_ne_zero.mp (indexed _ (List.mem_cons_self _ _))
    obtain ⟨w₁, query, outcomes, iface⟩ := bpfGetLinkXdpId_answer (uint32ToInt ifindex) w
    rw [nextPortLoop_cons nonzero query, portsRunning]
    split_ifs with answers
    · exact ⟨_, w₁, rfl, iface, 0, rfl, by rw [iface, outcomes]; rfl⟩
    · obtain ⟨r, w', loop, iface', rest⟩ := nextPortLoop_spec xdpProgId ifaces (index + 1) w₁
        fun entry mem => indexed entry (List.mem_cons_of_mem _ mem)
      refine ⟨r, w', loop, iface'.trans iface, ?_⟩
      rw [iface, outcomes] at rest
      -- the entry is skipped: one more entry before the port found
      generalize portsRunning xdpProgId w.iface w.outcomes.tail ifaces = found at rest ⊢
      cases found with
      | nil => exact rest
      | cons port ports =>
        obtain ⟨skipped, rfl, after⟩ := rest
        exact ⟨skipped + 1, by rw [Nat.add_right_comm, Nat.add_assoc], after⟩

/-- The entry `nikss_port_list_get_next_port` starts from: the first one, or the one after
the current one. -/
def cursorStart : Option Nat → Nat
  | none => 0
  | some index => index + 1

/-- A call returns what the loop from the cursor returns, and moves the cursor to it, or
back to the start at the end of the table. -/
theorem nikssPortListGetNextPort_of_loop {table : List (Nat × String)} {current : Option Nat}
    {xdpProgId : Nat} {w w' : World} {r : Option (Nat × Nat × String)}
    (loop : nextPortLoop xdpProgId (cursorStart current) (table.drop (cursorStart current)) w =
      some (r, w')) :
    nikssPortListGetNextPort ⟨some table, current, xdpProgId⟩ w = some (match r with
      | none => (none, ⟨some table, none, xdpProgId⟩)
      | some (index, port) => (some port, ⟨some table, some index, xdpProgId⟩), w') := by
  cases current <;>
    simp only [cursorStart] at loop <;>
    simp only [nikssPortListGetNextPort, Sys.bind_apply, loop, Option.some_bind] <;>
    rcases r with _ | ⟨index, port⟩ <;> rfl

/-- A caller's `calls` successive calls of `nikss_port_list_get_next_port`: what each
returned, in order, and the list after the last one. -/
def nextPorts : Nat → NikssPortList → Sys (List (Option (Nat × String)) × NikssPortList)
  | 0, list => pure ([], list)
  | calls + 1, list => do
    let (port, list) ← nikssPortListGetNextPort list
    let (ports, list) ← nextPorts calls list
    pure (port :: ports, list)

/-- From any cursor, the calls return the filter of the entries after it, one a call, and
then NULL with the cursor back at the start. -/
theorem nextPorts_from_cursor {table : List (Nat × String)} {xdpProgId : Nat}
    (indexed : ∀ entry ∈ table, 1 ≤ entry.1) :
    ∀ (ports : List (Nat × String)) (current : Option Nat) (w : World),
      portsRunning xdpProgId w.iface w.outcomes (table.drop (cursorStart current)) = ports →
      ∃ w', nextPorts (ports.length + 1) ⟨some table, current, xdpProgId⟩ w =
        some ((ports.map some ++ [none], ⟨some table, none, xdpProgId⟩), w')
  | ports, current, w, running => by
    obtain ⟨r, w₁, loop, -, found⟩ := nextPortLoop_spec xdpProgId
      (table.drop (cursorStart current)) (cursorStart current) w
      fun entry mem => indexed entry (List.mem_of_mem_drop mem)
    rw [running] at found
    cases ports with
    | nil => subst found; exact ⟨w₁, by simp [nextPorts, nikssPortListGetNextPort_of_loop loop]⟩
    | cons port ports =>
      obtain ⟨skipped, rfl, after⟩ := found
      obtain ⟨w', rest⟩ := nextPorts_from_cursor indexed ports (some (cursorStart current + skipped)) w₁
        (by rw [← after, List.drop_drop]; rfl)
      exact ⟨w', by rw [List.length_cons, nextPorts]; simp [nikssPortListGetNextPort_of_loop loop, rest]⟩

/-- The port iterator is the ordered filter: on the list `nikss_port_list_init` builds, with
an interface table of nonzero indices and any program id, successive calls return the
entries whose query answers that program, in table order and each once, and then NULL with
the list as it was built; with program id 0 they return no interface. -/
theorem nikssPortListGetNextPort_lists_running_ports (table : List (Nat × String))
    (xdpProgId : Nat) (w : World) (indexed : ∀ entry ∈ table, 1 ≤ entry.1) :
    let ports := portsRunning xdpProgId w.iface w.outcomes table
    (∃ w', nextPorts (ports.length + 1) ⟨some table, none, xdpProgId⟩ w =
      some ((ports.map some ++ [none], ⟨some table, none, xdpProgId⟩), w')) ∧
    ports.Sublist table ∧ (xdpProgId = 0 → ports = []) :=
  ⟨nextPorts_from_cursor indexed _ none w rfl, portsRunning_sublist _ _ _ _,
    fun zero => zero ▸ portsRunning_of_zero _ _ _⟩

/-- `nikssPortListGetNextPort_lists_running_ports` on three interfaces: one runs the
pipeline's program, one a foreign program, and the query of the third fails. -/
theorem nikssPortListGetNextPort_lists_running_ports_on_three_interfaces :
    let table := [(1, "eth0"), (2, "eth1"), (3, "eth2")]
    let w := World.boot (fun _ => none) [] (fun ifindex =>
      if ifindex = 2 then { Iface.bare false with xdpSkb := some 9 }
      else { Iface.bare false with xdpDrv := some 7 }) [none, none, some 1]
    (∀ entry ∈ table, 1 ≤ entry.1) ∧
      let ports := portsRunning 7 w.iface w.outcomes table
      (∃ w', nextPorts (ports.length + 1) ⟨some table, none, 7⟩ w =
        some ((ports.map some ++ [none], ⟨some table, none, 7⟩), w')) ∧
      ports.Sublist table ∧ (7 = 0 → ports = []) :=
  ⟨by decide, nikssPortListGetNextPort_lists_running_ports _ 7 _ (by decide)⟩

example : portsRunning 7 (World.boot (fun _ => none) [] (fun ifindex =>
      if ifindex = 2 then { Iface.bare false with xdpSkb := some 9 }
      else { Iface.bare false with xdpDrv := some 7 }) [none, none, some 1]).iface
    [none, none, some 1] [(1, "eth0"), (2, "eth1"), (3, "eth2")] = [(1, "eth0")] := by decide

set_option maxRecDepth 4000 in
set_option smartUnfolding false in
/-- A TC pipeline on an interface whose driver implements native XDP but refuses the
helper (`EOPNOTSUPP`): `add_port` attaches the helper in generic mode. `del_port` detaches
with no mode, which the kernel reads as driver mode, and succeeds with the generic program
still attached, so the pipeline's listing still yields the interface. -/
theorem nikssPipelineDelPort_keeps_generic_program :
    let defs : BpfDefs := ⟨"tc-ingress", "tc-egress", "xdp-ingress", "xdp-egress",
      "xdp-egress-optimized", "xdp-helper", "tc-init", "xdp-init", "devmap", "jump-table",
      by decide⟩
    let w : World :=
      { World.boot (fun _ => none) [(1, "eth0")] (fun _ => .bare true) [none, none, some 95] with
        pins := fun path =>
          if path = .prog 0 "xdp-helper" then some 1
          else if path = .prog 0 "tc-ingress" then some 2 else none
        objects := fun id => if id ≤ 2 then some (.prog 0) else none
        nextId := 3 }
    ∃ w₁ w₂ w₃ list,
      nikssPipelineAddPort defs ⟨0⟩ "eth0" w = some ((NO_ERROR, some 1), w₁) ∧
      nikssPipelineDelPort "eth0" w₁ = some (NO_ERROR, w₂) ∧
      nikssPortListInit defs ⟨0⟩ w₂ = some ((NO_ERROR, list), w₃) ∧
      (nikssPortListGetNextPort list w₃).map Prod.fst =
        some (some (1, "eth0"), { list with currentIface := some 0 }) :=
  ⟨_, _, _, _, rfl, rfl, rfl, rfl⟩

/-- Reading `/proc/uptime` with `fopen`, `fgets` and `strtod`; `none` on failure. -/
def readUptime : Sys (Option Float) := do
  match ← nextOutcome with
  | some e => do let _ ← fail e; pure none
  | none => pure (some (← get).uptime)

/-- `gettimeofday`, in seconds; `none` on failure. -/
def gettimeofday : Sys (Option Float) := do
  match ← nextOutcome with
  | some e => do let _ ← fail e; pure none
  | none => pure (some (← get).wallClock)

/-- The load time of an object in nanoseconds since boot, 0 for one that is no program. -/
def loadTimeOf : Option (ℕ+ × KObject) → Nat
  | some (_, .prog loadTime) => loadTime
  | _ => 0

/-- `nikss_pipeline_get_load_timestamp`: wall-clock seconds of the load, 0 on failure. -/
def nikssPipelineGetLoadTimestamp (defs : BpfDefs) (ctx : NikssContext) : Sys Nat := do
  let fd ← openPipelineProgram defs ctx
  if fd < 0 then return 0
  let (result, info) ← bpfObjGetInfoByFd fd
  let loadTimestamp ← if result ≠ 0 then pure 0 else do
    let loadTime := (loadTimeOf info).toFloat / 1e9
    match ← readUptime with
    | none => pure 0
    | some uptime =>
      match ← gettimeofday with
      | none => pure 0
      | some now => pure (now - uptime + loadTime).toUInt64.toNat
  close fd
  pure loadTimestamp

end Nikss

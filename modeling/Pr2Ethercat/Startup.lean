import Mathlib.Data.List.TakeWhile
import Pr2Ethercat.MasterBuffer
import Pr2Ethercat.Routing

/-!
# `initializePr2EthercatSlaves`

Start-up is five stages in a row. `initializeECatMaster` ends the process when
the interface or the libraries are not there, or no slave is located; every
later stage reports its failures in a return code or in a message, and
`initializePr2EthercatSlaves` drops all of them and returns 0.

`Ready` is what a return value of 0 ought to mean: a handle for every slave,
every WG05 configured and operational, the buffers allocated, and a received
status to look at. `initialize_ready_iff` says exactly when it does: no handle
is missing, every WG05 ends in `EC_OP_STATE`, and one of the 20 attempts at the
first exchange succeeds.
-/

namespace Pr2Ethercat

open ByteArea Retry Layout

/-! ## The master -/

/-- What the operating system and EML answer to `initializeECatMaster`; `ni`,
`al` and `em` are pointers. -/
structure MasterSetup where
  sock : Int
  ioctlResult : Int
  ifUp : Bool
  ifRunning : Bool
  ni : Nat
  al : Nat
  em : Nat

/-- `initializeECatMaster(interface)`, on a ring with `numSlaves` slaves;
`none` is `exit(-1)`. A failing `close` only prints. -/
def initializeECatMaster (env : MasterSetup) (numSlaves : Nat) : Option Int :=
  if env.sock < 0 then none
  else if env.ioctlResult < 0 then none
  else if env.ifUp = false then none
  else if env.ifRunning = false then none
  else if env.ni = NULL then none
  else if env.al = NULL then none
  else if numSlaves = 0 then none
  else if env.em = NULL then none
  else some 0

/-- An empty ring ends the process. -/
theorem initializeECatMaster_empty (env : MasterSetup) : initializeECatMaster env 0 = none := by
  unfold initializeECatMaster
  repeat' split
  all_goals first
    | rfl
    | contradiction

/-! ## The slave handles -/

/-- The ring as EML presents it: the number of slaves, the handler it returns
for a station address (`NULL` if it has none), and what the handlers point to.
Two station addresses never share a handler. -/
structure Bus where
  numSlaves : Nat
  slaveHandler : BitVec 16 → Nat
  slaves : Nat → SlaveHandler
  numSlaves_le : numSlaves ≤ 2 ^ 16
  slaveHandler_inj : ∀ a b, slaveHandler a ≠ NULL → slaveHandler a = slaveHandler b → a = b

/-- `em->get_slave_handler(EC_FixedStationAddress(slave + 1))`. -/
def Bus.handlerOf (bus : Bus) (slave : Nat) : Nat := bus.slaveHandler (BitVec.ofNat 16 (slave + 1))

/-- The loop of `getSlaveHandles`, with `turns` turns left before `slave`. -/
def handlesLoop (bus : Bus) : (turns slave : Nat) → List Nat → Int × List Nat
  | 0, _, handles => (0, handles)
  | turns + 1, slave, handles =>
    if bus.handlerOf slave = NULL then (-1, handles)
    else handlesLoop bus turns (slave + 1) (handles ++ [bus.handlerOf slave])

/-- The handles up to the first missing one. -/
def gatheredHandles (bus : Bus) : List Nat :=
  ((List.range bus.numSlaves).map bus.handlerOf).takeWhile (· ≠ NULL)

theorem handlesLoop_snd (bus : Bus) (turns : Nat) :
    ∀ (slave : Nat) (handles : List Nat), (handlesLoop bus turns slave handles).2
      = handles ++ ((List.range' slave turns).map bus.handlerOf).takeWhile (· ≠ NULL) := by
  induction turns with
  | zero => simp [handlesLoop]
  | succ turns ih =>
    intro slave handles
    rw [handlesLoop, List.range'_succ, List.map_cons]
    by_cases hnull : bus.handlerOf slave = NULL
    · rw [if_pos hnull, List.takeWhile_cons_of_neg (by simp [hnull]), List.append_nil]
    · rw [if_neg hnull, ih, List.takeWhile_cons_of_pos (by simp [hnull]), List.append_assoc]
      rfl

theorem handlesLoop_eq (bus : Bus) :
    (handlesLoop bus bus.numSlaves 0 []).2 = gatheredHandles bus := by
  rw [handlesLoop_snd, List.nil_append, ← List.range_eq_range', gatheredHandles]

theorem length_gatheredHandles_le (bus : Bus) : (gatheredHandles bus).length ≤ bus.numSlaves := by
  have h := (List.takeWhile_prefix (l := (List.range bus.numSlaves).map bus.handlerOf)
    (· ≠ NULL)).length_le
  simpa [gatheredHandles] using h

theorem gatheredHandles_nonNull {bus : Bus} {sh : Nat} (h : sh ∈ gatheredHandles bus) :
    sh ≠ NULL := by
  simpa using List.mem_takeWhile_imp h

theorem getElem_gatheredHandles {bus : Bus} {i : Nat} (hi : i < (gatheredHandles bus).length) :
    (gatheredHandles bus)[i] = bus.handlerOf i := by
  have hpre := List.takeWhile_prefix (l := (List.range bus.numSlaves).map bus.handlerOf) (· ≠ NULL)
  have hget := hpre.getElem hi
  rw [List.getElem_map, List.getElem_range] at hget
  exact hget

/-- Slaves at different places of the ring have different station addresses,
so they have different handlers. -/
theorem nodup_gatheredHandles (bus : Bus) : (gatheredHandles bus).Nodup := by
  have hlen := length_gatheredHandles_le bus
  have hbus := bus.numSlaves_le
  rw [List.nodup_iff_pairwise_ne, List.pairwise_iff_getElem]
  intro i j hi hj hij heq
  have hnull := gatheredHandles_nonNull (List.getElem_mem hi)
  rw [getElem_gatheredHandles hi] at heq hnull
  rw [getElem_gatheredHandles hj] at heq
  -- equal handlers mean equal 16-bit addresses, and the ring is too short for that
  have haddr := congrArg BitVec.toNat (bus.slaveHandler_inj _ _ hnull heq)
  rw [BitVec.toNat_ofNat, BitVec.toNat_ofNat] at haddr
  omega

/-- `getSlaveHandles()`: its return code, and the table it leaves. -/
def getSlaveHandles (bus : Bus) : Int × SlaveTable :=
  ((handlesLoop bus bus.numSlaves 0 []).1,
    { numSlaves := bus.numSlaves
      slaveHandles := (handlesLoop bus bus.numSlaves 0 []).2
      length_le := by
        rw [handlesLoop_eq]
        exact length_gatheredHandles_le bus
      numSlaves_le := bus.numSlaves_le
      nodup := by
        rw [handlesLoop_eq]
        exact nodup_gatheredHandles bus
      nonNull := fun sh hsh => by
        rw [handlesLoop_eq] at hsh
        exact gatheredHandles_nonNull hsh })

/-- The table is complete exactly when no handler is missing. -/
theorem gatheredHandles_complete_iff (bus : Bus) :
    (gatheredHandles bus).length = bus.numSlaves ↔ ∀ i < bus.numSlaves, bus.handlerOf i ≠ NULL := by
  constructor
  · intro h i hi
    rw [← getElem_gatheredHandles (by omega : i < (gatheredHandles bus).length)]
    exact gatheredHandles_nonNull (List.getElem_mem _)
  · intro h
    have hall : gatheredHandles bus = (List.range bus.numSlaves).map bus.handlerOf := by
      refine List.takeWhile_eq_self_iff.mpr fun sh hsh => ?_
      obtain ⟨i, hi, rfl⟩ := List.mem_map.mp hsh
      simpa using h i (List.mem_range.mp hi)
    rw [hall, List.length_map, List.length_range]

/-! ## All stages -/

structure StartupEnv where
  master : MasterSetup
  bus : Bus
  buffers : BufferSetup
  mem : Area

/-- `initializePr2EthercatSlaves(ethercatPortName)`; `none` if the process
ended in it. -/
def initializePr2EthercatSlaves (env : StartupEnv) : Option (Int × Driver) :=
  match initializeECatMaster env.master env.bus.numSlaves with
  | none => none
  | some _ =>
    -- the codes of `getSlaveHandles` and `setMasterBuffer` are dropped
    let d := Driver.gathered (getSlaveHandles env.bus).2 env.bus.slaves env.mem
    let d := findWG05slaves d.table.slaveHandles d
    let d := configureWG05slaves d
    let d := (setMasterBuffer env.buffers d).2
    some (0, d)

/-- Start-up has succeeded. -/
structure Ready (d : Driver) (env : BufferSetup) : Prop where
  handles : d.table.slaveHandles.length = d.table.numSlaves
  configured : ∀ sh ∈ d.table.slaveHandles, isWG05 d.slaves sh = true →
    (∃ start, (d.slaves sh).fmmuConfig = some (wg05Windows start)) ∧
      (d.slaves sh).pdConfig = some wg05SyncManagers
  operational : ∀ sh ∈ d.table.slaveHandles, isWG05 d.slaves sh = true →
    (d.slaves sh).state = .ecOpState
  allocated : d.masterBuffer ≠ NULL ∧ d.masterBufferAlloc = 2 * d.masterBufferSize
  halves : d.thisBuffer = d.masterBuffer ∧ d.prevBuffer = d.masterBuffer + d.masterBufferSize
  status : ∃ i < setupTries, ∃ r, env.replies i = some r ∧
    statusImage d.mem d.prevBuffer d.numHandles = statusImage r 0 d.numHandles

/-- The driver start-up leaves behind, if the process does not end in it. -/
def started (env : StartupEnv) : Driver :=
  (setMasterBuffer env.buffers
    (configured (getSlaveHandles env.bus).2 env.bus.slaves env.mem)).2

theorem initialize_eq (env : StartupEnv) :
    initializePr2EthercatSlaves env =
      (initializeECatMaster env.master env.bus.numSlaves).map fun _ => (0, started env) := by
  unfold initializePr2EthercatSlaves
  cases initializeECatMaster env.master env.bus.numSlaves with
  | none => rfl
  | some _ => rfl

/-- The requests made of the `k`-th WG05 slave `s` leave it in `EC_OP_STATE`. -/
def BufferSetup.Operates (env : BufferSetup) (s : SlaveHandler) (k : Nat) : Prop :=
  env.reached .ecOpState k = true ∨
    env.reached .ecSafeopState k = false ∧ env.reached .ecPreopState k = false ∧
      s.state = .ecOpState

theorem SlaveHandler.state_request (s : SlaveHandler) (next : EcState) (reached : Bool) :
    (s.request next reached).state = if reached = true then next else s.state := by
  unfold SlaveHandler.request
  split
  · rfl
  · rfl

theorem state_requests_iff (env : BufferSetup) (s : SlaveHandler) (k : Nat) :
    (env.requests s k).state = .ecOpState ↔ env.Operates s k := by
  unfold BufferSetup.requests BufferSetup.Operates
  rw [SlaveHandler.state_request, SlaveHandler.state_request, SlaveHandler.state_request]
  cases env.reached .ecOpState k with
  | true => simp
  | false =>
    cases env.reached .ecSafeopState k with
    | true => simp
    | false =>
      cases env.reached .ecPreopState k with
      | true => simp
      | false => simp

theorem SlaveHandler.request_eq (s : SlaveHandler) (next : EcState) (reached : Bool) :
    s.request next reached = { s with state := (s.request next reached).state } := by
  unfold SlaveHandler.request
  split
  · rfl
  · rfl

/-- Requests change nothing but the state. -/
theorem requests_eq (env : BufferSetup) (s : SlaveHandler) (k : Nat) :
    env.requests s k = { s with state := (env.requests s k).state } := by
  unfold BufferSetup.requests
  rw [SlaveHandler.request_eq _ .ecOpState, SlaveHandler.request_eq _ .ecSafeopState,
    SlaveHandler.request_eq _ .ecPreopState]

/-! ## The slaves after configuration and state changes -/

section BroughtUp

variable {table : SlaveTable} {slaves : Nat → SlaveHandler} (env : BufferSetup) (mem : Area)

theorem configured_wg05SlaveHandles :
    (configured table slaves mem).wg05SlaveHandles
      = table.slaveHandles.filter (isWG05 slaves) := by
  rw [(configured_spec mem).eq]
  exact findWG05slaves_gathered mem

theorem configured_broughtUp :
    BroughtUp env (configured table slaves mem) (bringUp env (configured table slaves mem)) := by
  apply bringUp_spec env
  rw [configured_wg05SlaveHandles mem]
  exact table.nodup.filter _

/-- The `k`-th WG05 slave is configured, and has had its requests. -/
theorem bringUp_configured {k : Nat}
    (hk : k < (table.slaveHandles.filter (isWG05 slaves)).length) :
    (bringUp env (configured table slaves mem)).slaves
        (table.slaveHandles.filter (isWG05 slaves))[k] =
      env.requests ((slaves (table.slaveHandles.filter (isWG05 slaves))[k]).configured
        (windowStart k)) k := by
  have hslave := (configured_broughtUp env mem).slave k
    (by rw [configured_wg05SlaveHandles mem]; exact hk)
  simp only [configured_wg05SlaveHandles mem] at hslave
  have hconf : (configured table slaves mem).slaves
        (table.slaveHandles.filter (isWG05 slaves))[k]
      = (slaves (table.slaveHandles.filter (isWG05 slaves))[k]).configured (windowStart k) :=
    (configured_spec mem).slave k hk
  rw [hslave, hconf]

/-- No other slave is touched. -/
theorem bringUp_configured_others {sh : Nat}
    (hsh : sh ∉ table.slaveHandles.filter (isWG05 slaves)) :
    (bringUp env (configured table slaves mem)).slaves sh = slaves sh := by
  rw [(configured_broughtUp env mem).others sh
    (by rw [configured_wg05SlaveHandles mem]; exact hsh), (configured_spec mem).others sh hsh]
  rfl

end BroughtUp

section Started

variable (env : StartupEnv)

/-- The WG05 slaves start-up knows, in ring order. -/
def StartupEnv.wg05s : List Nat :=
  (getSlaveHandles env.bus).2.slaveHandles.filter (isWG05 env.bus.slaves)

/-- The globals when `setMasterBuffer` is called. -/
def StartupEnv.configured : Driver :=
  Pr2Ethercat.configured (getSlaveHandles env.bus).2 env.bus.slaves env.mem

theorem StartupEnv.configured_spec :
    Configured env.wg05s
      (findWG05slaves (getSlaveHandles env.bus).2.slaveHandles
        (Driver.gathered (getSlaveHandles env.bus).2 env.bus.slaves env.mem))
      env.configured :=
  Pr2Ethercat.configured_spec env.mem

theorem StartupEnv.configured_table : env.configured.table = (getSlaveHandles env.bus).2 :=
  Pr2Ethercat.configured_table env.mem

/-- The `k`-th WG05 slave is configured, and has had its requests. -/
theorem broughtUp_slave {k : Nat} (hk : k < env.wg05s.length) :
    (bringUp env.buffers env.configured).slaves env.wg05s[k] =
      env.buffers.requests ((env.bus.slaves env.wg05s[k]).configured (windowStart k)) k :=
  bringUp_configured env.buffers env.mem hk

/-- Which slaves are WG05 is the same at the end as at the beginning. -/
theorem isWG05_broughtUp {sh : Nat} (hsh : sh ∈ (getSlaveHandles env.bus).2.slaveHandles) :
    isWG05 (bringUp env.buffers env.configured).slaves sh = true ↔
      ∃ (k : Nat) (hk : k < env.wg05s.length), env.wg05s[k] = sh := by
  have hmem : sh ∈ env.wg05s ↔ isWG05 env.bus.slaves sh = true := by
    unfold StartupEnv.wg05s
    rw [List.mem_filter]
    exact ⟨fun h => h.2, fun h => ⟨hsh, h⟩⟩
  have hsame :
      isWG05 (bringUp env.buffers env.configured).slaves sh = isWG05 env.bus.slaves sh := by
    by_cases hin : sh ∈ env.wg05s
    · obtain ⟨k, hk, h⟩ := List.mem_iff_getElem.mp hin
      rw [← h, isWG05, broughtUp_slave env hk, requests_eq]
      rfl
    · have hother : (bringUp env.buffers env.configured).slaves sh = env.bus.slaves sh :=
        bringUp_configured_others env.buffers env.mem hin
      rw [isWG05, hother]
      rfl
  rw [hsame, ← hmem]
  exact List.mem_iff_getElem

/-- What start-up leaves behind, when it gathered any slaves. -/
theorem started_eq (hne : env.configured.numHandles ≠ 0) :
    started env =
      { env.configured with
        slaves := (bringUp env.buffers env.configured).slaves
        masterBufferSize := imageSize (getSlaveHandles env.bus).2
        masterBuffer := env.buffers.buffer
        masterBufferAlloc := 2 * imageSize (getSlaveHandles env.bus).2
        thisBuffer := env.buffers.buffer
        prevBuffer := env.buffers.buffer + imageSize (getSlaveHandles env.bus).2
        mem := startMem env.buffers (getSlaveHandles env.bus).2 env.configured.mem } := by
  show (setMasterBuffer env.buffers env.configured).2 = _
  rw [setMasterBuffer_eq env.buffers hne]
  simp only [← env.configured_table]

/-- The statuses in `prev_buffer_` are those of the initial image. -/
theorem statusImage_started (hne : env.configured.numHandles ≠ 0) :
    statusImage (started env).mem (started env).prevBuffer (started env).numHandles
      = statusImage (initialImage env.buffers) 0 (started env).numHandles := by
  rw [started_eq env hne]
  refine statusImage_congr fun k hk => ?_
  have hfit := slots_le_imageSize (getSlaveHandles env.bus).2
  have hnum : env.configured.numHandles = (getSlaveHandles env.bus).2.slaveHandles.length := by
    rw [Driver.numHandles, env.configured_table]
  rw [Nat.zero_add]
  exact startMem_second _ _ _ (Nat.lt_of_lt_of_le hk (hnum ▸ hfit))

theorem started_table (hne : env.configured.numHandles ≠ 0) :
    (started env).table = (getSlaveHandles env.bus).2 := by
  rw [started_eq env hne]
  exact env.configured_table

theorem started_slaves (hne : env.configured.numHandles ≠ 0) :
    (started env).slaves = (bringUp env.buffers env.configured).slaves := by
  rw [started_eq env hne]

theorem handles_started (hne : env.configured.numHandles ≠ 0) :
    (started env).table.slaveHandles = gatheredHandles env.bus := by
  rw [started_table env hne]
  exact handlesLoop_eq env.bus

/-- No slave is missing, every WG05 comes up, and an exchange succeeds. -/
def StartupEnv.Succeeds : Prop :=
  (∀ i < env.bus.numSlaves, env.bus.handlerOf i ≠ NULL) ∧
  (∀ (k : Nat) (hk : k < env.wg05s.length),
    env.buffers.Operates (env.bus.slaves env.wg05s[k]) k) ∧
  ∃ i < setupTries, env.buffers.replies i ≠ none

/-- A `Ready` driver has allocated its buffers, so it has gathered slaves. -/
theorem numHandles_of_ready (hready : Ready (started env) env.buffers) :
    env.configured.numHandles ≠ 0 := by
  intro hzero
  -- `setMasterBuffer` has returned at once, and the buffer is still `NULL`
  have hsame : started env = env.configured := by
    show (setMasterBuffer env.buffers env.configured).2 = _
    unfold setMasterBuffer
    rw [if_pos hzero]
  have hnull : env.configured.masterBuffer = NULL := by
    rw [env.configured_spec.eq]
    rfl
  rw [hsame] at hready
  exact hready.allocated.1 hnull

theorem succeeds_of_ready (hready : Ready (started env) env.buffers) : env.Succeeds := by
  have hne := numHandles_of_ready env hready
  have htable := started_table env hne
  have hslaves := started_slaves env hne
  refine ⟨?_, ?_, ?_⟩
  · refine (gatheredHandles_complete_iff env.bus).mp ?_
    rw [← handles_started env hne, hready.handles, htable]
    rfl
  · intro k hk
    have hin : env.wg05s[k] ∈ (getSlaveHandles env.bus).2.slaveHandles :=
      List.mem_of_mem_filter (List.getElem_mem hk)
    have hstate := hready.operational env.wg05s[k] (by rw [htable]; exact hin)
      (by rw [hslaves]; exact (isWG05_broughtUp env hin).mpr ⟨k, hk, rfl⟩)
    rw [hslaves, broughtUp_slave env hk] at hstate
    have hops := (state_requests_iff env.buffers
      ((env.bus.slaves env.wg05s[k]).configured (windowStart k)) k).mp hstate
    exact hops
  · obtain ⟨i, hi, r, hr, _⟩ := hready.status
    exact ⟨i, hi, by rw [hr]; simp⟩

theorem ready_of_succeeds (hn : env.bus.numSlaves ≠ 0) (h : env.Succeeds) :
    Ready (started env) env.buffers := by
  obtain ⟨hhandlers, hops, i, hi, hreply⟩ := h
  have hlen := (gatheredHandles_complete_iff env.bus).mpr hhandlers
  have hne : env.configured.numHandles ≠ 0 := by
    unfold Driver.numHandles
    rw [env.configured_table]
    show (handlesLoop env.bus env.bus.numSlaves 0 []).2.length ≠ 0
    rw [handlesLoop_eq, hlen]
    exact hn
  have htable := started_table env hne
  have hslaves := started_slaves env hne
  constructor
  case handles =>
    rw [handles_started env hne, hlen, htable]
    rfl
  case configured =>
    intro sh hsh hw
    rw [htable] at hsh
    rw [hslaves] at hw ⊢
    obtain ⟨k, hk, rfl⟩ := (isWG05_broughtUp env hsh).mp hw
    rw [broughtUp_slave env hk, requests_eq]
    exact ⟨⟨windowStart k, rfl⟩, rfl⟩
  case operational =>
    intro sh hsh hw
    rw [htable] at hsh
    rw [hslaves] at hw ⊢
    obtain ⟨k, hk, rfl⟩ := (isWG05_broughtUp env hsh).mp hw
    rw [broughtUp_slave env hk]
    exact (state_requests_iff env.buffers _ k).mpr (hops k hk)
  case allocated =>
    rw [started_eq env hne]
    exact ⟨env.buffers.buffer_ne, rfl⟩
  case halves =>
    rw [started_eq env hne]
    exact ⟨rfl, rfl⟩
  case status =>
    rw [statusImage_started env hne]
    cases hres : firstSome env.buffers.replies setupTries 0 with
    | none => exact absurd (firstSome_zero_eq_none_iff.mp hres i hi) hreply
    | some r =>
      obtain ⟨j, hj, hr⟩ := exists_of_firstSome_eq_some hres
      rw [Nat.zero_add] at hr
      refine ⟨j, hj, r, hr, ?_⟩
      rw [initialImage, hres, Option.getD_some]

end Started

/-- **Start-up.** A return value of 0 means a ready driver if and only if no
handler is missing, every WG05 slave ends up in `EC_OP_STATE`, and one of the
attempts at the first exchange succeeds; or if the process ends before
`initializePr2EthercatSlaves` returns at all. -/
theorem initialize_ready_iff (env : StartupEnv) :
    (∀ d, initializePr2EthercatSlaves env = some (0, d) → Ready d env.buffers) ↔
      initializeECatMaster env.master env.bus.numSlaves = none ∨
      (∀ i < env.bus.numSlaves, env.bus.handlerOf i ≠ NULL) ∧
      (∀ (k : Nat) (hk : k < env.wg05s.length),
        env.buffers.Operates (env.bus.slaves env.wg05s[k]) k) ∧
      ∃ i < setupTries, env.buffers.replies i ≠ none := by
  rw [initialize_eq]
  cases hmaster : initializeECatMaster env.master env.bus.numSlaves with
  | none => simp
  | some _ =>
    have hn : env.bus.numSlaves ≠ 0 := by
      intro hzero
      rw [hzero, initializeECatMaster_empty] at hmaster
      exact absurd hmaster (by simp)
    simp only [Option.map_some, Option.some.injEq, Prod.mk.injEq, true_and, forall_eq',
      reduceCtorEq, false_or]
    exact ⟨succeeds_of_ready env, ready_of_succeeds env hn⟩

/-- A working interface and master. -/
def workingMaster : MasterSetup where
  sock := 3
  ioctlResult := 0
  ifUp := true
  ifRunning := true
  ni := 0x10
  al := 0x20
  em := 0x30

/-- A ring of one motor board, which refuses to become operational. -/
def refusingBoard : StartupEnv where
  master := workingMaster
  bus :=
    { numSlaves := oneBoardBus.numSlaves
      slaveHandler := fun a => a.toNat
      slaves := oneBoardSlaves
      numSlaves_le := oneBoardBus.numSlaves_le
      slaveHandler_inj := fun _ _ _ h => BitVec.eq_of_toNat_eq h }
  buffers :=
    { reached := fun state _ => !(state == .ecOpState)
      buffer := 0x2000
      replies := fun _ => some fun _ => 0
      buffer_ne := Nat.succ_ne_zero 0x1fff }
  mem := fun _ => 0

/-- Start-up returns 0 all the same, with the board in `EC_SAFEOP_STATE`. -/
theorem initialize_returns_unready :
    ¬ ∀ d, initializePr2EthercatSlaves refusingBoard = some (0, d) →
      Ready d refusingBoard.buffers := by
  intro h
  have hready := h (started refusingBoard) (by rw [initialize_eq]; rfl)
  obtain ⟨_, hops, _⟩ := succeeds_of_ready refusingBoard hready
  exact absurd (hops 0 (by decide)) (by simp [BufferSetup.Operates, refusingBoard])

end Pr2Ethercat

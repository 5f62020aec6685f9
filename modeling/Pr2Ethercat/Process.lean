import Pr2Ethercat.MonitorChanges
import Pr2Ethercat.Startup
import Pr2Ethercat.Update

/-!
# The process from its start, and the backup of `monitorChanges`

`Startup` and `Update` look at a driver that is initialised once. Nothing in
the source keeps `initializePr2EthercatSlaves` from running twice, or
`monitorChanges` from running before it: the monitor's own checks of
`prev_buffer_` are there for that. `Process` is the program with no such order
built in. `slave_handles` is never cleared, so a second initialisation adds its
handles to those of the first; `num_slaves` and the buffer are replaced.

`monitor_backup` is allocated at the first call of `monitorChanges`, with the
size the image has then, and never again. `Process.Admits` says of a call what
keeps this safe: an initialisation must not make the image, or the slots of the
handles gathered so far, larger than a backup that is already there.
`backup_not_overrun` is the result: admitted runs never overrun the backup, and
any other run does, if `monitorChanges` is called twice at the right moment.
Whether a run does so itself is a matter of the moments at which it calls
`monitorChanges`: there must be room then (`Process.Roomy`), whatever the
initialisations in between have done.
-/

namespace Pr2Ethercat

open ByteArea

/-! ## The process -/

/-- `num_slaves` and `slave_handles` before any initialisation. -/
def emptyTable : SlaveTable where
  numSlaves := 0
  slaveHandles := []
  length_le := Nat.le_refl 0
  numSlaves_le := Nat.zero_le _
  nodup := List.nodup_nil
  nonNull := fun _ h => absurd h List.not_mem_nil

/-- The globals, and the statics of `monitorChanges`. `driver.table` is what the
last call of `getSlaveHandles` located and gathered; `earlier` are the handles
that calls before it have left in `slave_handles`. -/
structure Process where
  em : Nat
  earlier : List Nat
  driver : Driver
  statics : Option Monitor

def Process.start (slaves : Nat → SlaveHandler) (mem : Area) : Process :=
  ⟨NULL, [], Driver.gathered emptyTable slaves mem, none⟩

namespace Process

/-- `slave_handles`. -/
def slaveHandles (p : Process) : List Nat := p.earlier ++ p.driver.table.slaveHandles

/-- `slave_handles.size()`. -/
def numHandles (p : Process) : Nat := p.slaveHandles.length

end Process

namespace Process

/-- `initializePr2EthercatSlaves(ethercatPortName)`; `none` if the process ended
in it. The handlers keep the state and the configuration they have. -/
def initializePr2EthercatSlaves (env : StartupEnv) (p : Process) : Option Process :=
  match initializeECatMaster env.master env.bus.numSlaves with
  | none => none
  | some _ =>
    let earlier := p.slaveHandles
    let table := (getSlaveHandles env.bus).2
    -- `slave_handles` is passed on as it is, with the handles of earlier calls
    let d := findWG05slaves (earlier ++ table.slaveHandles) { p.driver with table := table }
    let d := configureWG05slaves d
    let d :=
      if (earlier ++ table.slaveHandles).length = 0 then d else fillMasterBuffer env.buffers d
    some { p with em := env.master.em, earlier := earlier, driver := d }

/-- `packCommand()`, over all handles. -/
def packCommand (env : PackEnv) (p : Process) : Driver := packSlots env p.numHandles p.driver

/-- `update()`. Before any initialisation `em` is `NULL`, and calling a member
function through it ends the process. -/
def update (c : Cycle) (p : Process) : Option Process :=
  if p.em = NULL then none
  else some { p with driver := (updateSlots c p.numHandles p.driver).driver }

/-- The comparison loop of `monitorChanges`, over all handles. -/
def comparisons (p : Process) (m : Monitor) : List Comparison :=
  compareSlots p.numHandles p.driver m p.driver.prevBuffer

/-- `monitorChanges(threshold)`: the lines it prints, and the process after it.
`fresh` is the memory a first call gets for the backup. -/
def monitorChanges (fresh : Area) (threshold : Int) (p : Process) :
    List (Nat × BitVec 32) × Process :=
  let call := monitorSlots p.numHandles p.driver p.statics fresh threshold
  (call.1, { p with statics := some call.2 })

/-! ## One initialisation

A process that is initialised once is the driver of the other files. -/

theorem initialize_once (env : StartupEnv) :
    ((Process.start env.bus.slaves env.mem).initializePr2EthercatSlaves env).map
        (fun p => ((0 : Int), p.driver))
      = Pr2Ethercat.initializePr2EthercatSlaves env := by
  rw [initialize_eq]
  unfold Process.initializePr2EthercatSlaves
  cases initializeECatMaster env.master env.bus.numSlaves with
  | none => rfl
  | some _ =>
    refine congrArg (fun d => some ((0 : Int), d)) ?_
    have hnum : (configured (getSlaveHandles env.bus).2 env.bus.slaves env.mem).numHandles
        = (getSlaveHandles env.bus).2.slaveHandles.length := configured_numHandles env.mem
    show (if (getSlaveHandles env.bus).2.slaveHandles.length = 0 then
        configured (getSlaveHandles env.bus).2 env.bus.slaves env.mem
      else fillMasterBuffer env.buffers
        (configured (getSlaveHandles env.bus).2 env.bus.slaves env.mem)) = started env
    unfold started setMasterBuffer
    by_cases hzero : (getSlaveHandles env.bus).2.slaveHandles.length = 0
    · rw [if_pos hzero, if_pos (hnum.trans hzero)]
    · rw [if_neg hzero, if_neg (by rw [hnum]; exact hzero)]

/-- An `update` that comes back has changed the driver only. -/
theorem eq_of_update {c : Cycle} {p p' : Process} (h : p.update c = some p') :
    p' = { p with driver := (updateSlots c p.numHandles p.driver).driver } := by
  unfold Process.update at h
  split at h
  · exact absurd h (by simp)
  · exact (Option.some.inj h).symm

theorem update_once {p : Process} (honce : p.earlier = []) (hem : p.em ≠ NULL) (c : Cycle) :
    p.update c = some { p with driver := (Pr2Ethercat.update c p.driver).driver } := by
  have hnum : p.numHandles = p.driver.numHandles := by
    unfold numHandles slaveHandles
    rw [honce, List.nil_append]
    rfl
  unfold Process.update
  rw [if_neg hem, hnum]
  rfl

theorem monitorChanges_once {p : Process} (honce : p.earlier = []) (fresh : Area)
    (threshold : Int) :
    p.monitorChanges fresh threshold =
      ((Pr2Ethercat.monitorChanges p.driver p.statics fresh threshold).1,
        { p with
          statics := some (Pr2Ethercat.monitorChanges p.driver p.statics fresh threshold).2 }) := by
  have hnum : p.numHandles = p.driver.numHandles := by
    unfold numHandles slaveHandles
    rw [honce, List.nil_append]
    rfl
  unfold Process.monitorChanges
  rw [hnum]
  rfl

/-! ## Using the backup -/

/-- What one call of `monitorChanges` does with its backup: the bytes it was
allocated with, the windows (offset, length) the comparison reads, and the
number of bytes the copy writes. -/
structure BackupUse where
  allocated : Nat
  reads : List (Nat × Nat)
  copied : Nat

/-- The use a call makes of the backup. Nothing is read before there is a
baseline, and nothing is done as long as `prev_buffer_` is `NULL`. -/
def backupUse (fresh : Area) (p : Process) : BackupUse :=
  let m := Monitor.enter p.statics p.driver fresh
  { allocated := m.monitorBackupSize
    reads :=
      if m.Compares p.driver then
        (Layout.walk slotSize p.numHandles 0 0).map fun slot =>
          (slot.2 + commandSize + encoderCountOffset, 4)
      else []
    copied := if p.driver.prevBuffer ≠ NULL then p.driver.masterBufferSize else 0 }

/-- The counts that a call compares with are those in the windows it reads. -/
theorem backup_comparisons {fresh : Area} {p : Process}
    (hcompares : (Monitor.enter p.statics p.driver fresh).Compares p.driver) (m : Monitor) :
    (p.comparisons m).map (·.backup) = (p.backupUse fresh).reads.map fun w =>
      BitVec.ofNat 32 (leNat (slice m.monitorBackup w.1 w.2)) := by
  show (compareSlots p.numHandles p.driver m p.driver.prevBuffer).map _ =
    (if (Monitor.enter p.statics p.driver fresh).Compares p.driver then _ else []).map _
  rw [if_pos hcompares, compareSlots_eq_map, Layout.walk_eq_map, List.map_map, List.map_map,
    List.map_map]
  simp only [Function.comp_def, Nat.zero_add]
  rfl

/-- And the copy overwrites as many bytes of the backup as it copies, and no others. -/
theorem copySection_copied (fresh : Area) (p : Process) (m : Monitor) (a : Nat) :
    (copySection p.driver m).monitorBackup a =
      if a < (p.backupUse fresh).copied then p.driver.mem (p.driver.prevBuffer + a)
      else m.monitorBackup a := by
  show _ = if a < (if p.driver.prevBuffer ≠ NULL then p.driver.masterBufferSize else 0) then _
    else _
  unfold copySection
  by_cases hprev : p.driver.prevBuffer ≠ NULL
  · rw [if_pos hprev, if_pos hprev]
    unfold blit
    simp only [Nat.zero_add, Nat.zero_le, true_and, Nat.sub_zero]
  · rw [if_neg hprev, if_neg hprev, if_neg (Nat.not_lt_zero a)]

/-- The call stays inside the backup. -/
def BackupUse.Fits (use : BackupUse) : Prop :=
  use.copied ≤ use.allocated ∧ ∀ w ∈ use.reads, w.1 + w.2 ≤ use.allocated

inductive Call where
  | initializePr2EthercatSlaves (env : StartupEnv)
  | update (c : Cycle)
  | monitorChanges (threshold : Int)

/-- The call is not an initialisation. -/
def Call.Later (c : Call) : Prop := ∀ env, c ≠ .initializePr2EthercatSlaves env

/-- One whole call; `none` if the process ended in it. -/
def call (fresh : Area) (p : Process) : Call → Option Process
  | .initializePr2EthercatSlaves env => p.initializePr2EthercatSlaves env
  | .update c => p.update c
  | .monitorChanges threshold => some (p.monitorChanges fresh threshold).2

/-- No call of `monitorChanges` in the run overruns the backup. -/
def Safe (fresh : Area) : Process → List Call → Prop
  | _, [] => True
  | p, c :: calls =>
    (∀ threshold, c = .monitorChanges threshold → (p.backupUse fresh).Fits) ∧
      ∀ p', p.call fresh c = some p' → Safe fresh p' calls

/-- The bytes an initialisation on `bus` may use: those of the backup, or of the
new image if there is no backup yet. -/
def room (p : Process) (bus : Bus) : Nat :=
  match p.statics with
  | none => slotSize * bus.numSlaves
  | some m => m.monitorBackupSize

/-- The number of handles after an initialisation on `bus`. -/
def handlesAfter (p : Process) (bus : Bus) : Nat := p.numHandles + (gatheredHandles bus).length

/-- The call leaves enough room in the backup: an initialisation that returns
with any slave gathered must not make the image, or the slots of all handles,
larger than the backup. -/
def Admits (p : Process) : Call → Prop
  | .initializePr2EthercatSlaves env =>
    initializeECatMaster env.master env.bus.numSlaves = none ∨ p.handlesAfter env.bus = 0 ∨
      (slotSize * env.bus.numSlaves ≤ p.room env.bus ∧
        slotSize * p.handlesAfter env.bus ≤ p.room env.bus)
  | .update _ => True
  | .monitorChanges _ => True

/-- Every call of the run is admitted by the state it is made in. -/
def Admitted (fresh : Area) : Process → List Call → Prop
  | _, [] => True
  | p, c :: calls => p.Admits c ∧ ∀ p', p.call fresh c = some p' → Admitted fresh p' calls

/-- The bytes the backup has, or would be allocated with now. -/
def backupSize (p : Process) : Nat :=
  match p.statics with
  | none => p.driver.masterBufferSize
  | some m => m.monitorBackupSize

/-- There is a baseline in the backup. -/
def Baseline (p : Process) : Prop := ∃ m, p.statics = some m ∧ m.monitorDeltaInit = true

/-- There is room for a call of `monitorChanges`: for the image once
`prev_buffer_` is set, and for the slots of all handles once there is a baseline. -/
def Roomy (p : Process) : Prop :=
  (p.driver.prevBuffer ≠ NULL → p.driver.masterBufferSize ≤ p.backupSize) ∧
    (p.Baseline ∧ p.driver.prevBuffer ≠ NULL → slotSize * p.numHandles ≤ p.backupSize)

/-- There is room whenever the run calls `monitorChanges`. -/
def RoomyCalls (fresh : Area) : Process → List Call → Prop
  | _, [] => True
  | p, c :: calls =>
    (∀ threshold, c = .monitorChanges threshold → p.Roomy) ∧
      ∀ p', p.call fresh c = some p' → RoomyCalls fresh p' calls

/-! ## What an initialisation changes -/

theorem configureLoop_frame (l : List Nat) :
    ∀ d : Driver, configureLoop l d =
      { d with
        startAddress := (configureLoop l d).startAddress
        slaves := (configureLoop l d).slaves } := by
  induction l with
  | nil =>
    intro d
    rfl
  | cons sh l ih =>
    intro d
    have hfmmu : (configureWG05fmmu sh d).2 =
        { d with
          startAddress := (configureWG05fmmu sh d).2.startAddress
          slaves := (configureWG05fmmu sh d).2.slaves } := by
      unfold configureWG05fmmu
      split
      · rfl
      · split
        · rfl
        · rfl
    have hpd : ∀ d : Driver, (configureWG05pd sh d).2 =
        { d with slaves := (configureWG05pd sh d).2.slaves } := by
      intro d
      unfold configureWG05pd
      split
      · rfl
      · split
        · rfl
        · rfl
    rw [configureLoop, ih, hpd, hfmmu]

/-- Finding and configuring slaves leaves the table and the buffer alone. -/
theorem configureWG05slaves_frame (handles : List Nat) (d : Driver) :
    (configureWG05slaves (findWG05slaves handles d)).table = d.table ∧
      (configureWG05slaves (findWG05slaves handles d)).masterBufferSize = d.masterBufferSize := by
  unfold configureWG05slaves
  rw [configureLoop_frame]
  exact ⟨rfl, rfl⟩

/-- Whatever the handles are, the buffer is as large as the slaves located need. -/
theorem fillMasterBuffer_buffer (env : BufferSetup) (d : Driver) :
    (fillMasterBuffer env d).table = d.table ∧
      (fillMasterBuffer env d).masterBufferSize = slotSize * d.table.numSlaves ∧
      (fillMasterBuffer env d).prevBuffer ≠ NULL := by
  have hne := env.buffer_ne
  rw [fillMasterBuffer_eq]
  refine ⟨rfl, rfl, ?_⟩
  show env.buffer + imageSize d.table ≠ NULL
  unfold NULL at hne ⊢
  omega

/-- What is left of an initialisation for the monitor. -/
structure Initialized (p : Process) (env : StartupEnv) (p' : Process) : Prop where
  statics : p'.statics = p.statics
  handles : p'.numHandles = p.handlesAfter env.bus
  unfilled : p'.numHandles = 0 → p'.driver.masterBufferSize = p.driver.masterBufferSize
  size : p'.numHandles ≠ 0 → p'.driver.masterBufferSize = slotSize * env.bus.numSlaves
  prev : p'.numHandles ≠ 0 → p'.driver.prevBuffer ≠ NULL

theorem initialized {p p' : Process} {env : StartupEnv}
    (h : p.initializePr2EthercatSlaves env = some p') : Initialized p env p' := by
  unfold Process.initializePr2EthercatSlaves at h
  cases hmaster : initializeECatMaster env.master env.bus.numSlaves with
  | none =>
    rw [hmaster] at h
    exact absurd h (by simp)
  | some code =>
    rw [hmaster] at h
    have hp' := (Option.some.inj h).symm
    have hgathered : (getSlaveHandles env.bus).2.slaveHandles = gatheredHandles env.bus :=
      handlesLoop_eq env.bus
    have hframe := configureWG05slaves_frame
      (p.slaveHandles ++ (getSlaveHandles env.bus).2.slaveHandles)
      { p.driver with table := (getSlaveHandles env.bus).2 }
    generalize configureWG05slaves (findWG05slaves
      (p.slaveHandles ++ (getSlaveHandles env.bus).2.slaveHandles)
      { p.driver with table := (getSlaveHandles env.bus).2 }) = d at hp' hframe
    have hfill := fillMasterBuffer_buffer env.buffers d
    rw [hframe.1] at hfill
    have hhandles : p.handlesAfter env.bus
        = (p.slaveHandles ++ (getSlaveHandles env.bus).2.slaveHandles).length := by
      rw [List.length_append, hgathered]
      rfl
    by_cases hzero : (p.slaveHandles ++ (getSlaveHandles env.bus).2.slaveHandles).length = 0
    · rw [if_pos hzero] at hp'
      have hnum : p'.numHandles = p.handlesAfter env.bus := by
        rw [hhandles, hp']
        show (p.slaveHandles ++ d.table.slaveHandles).length = _
        rw [hframe.1]
      rw [hhandles, hzero] at hnum
      refine ⟨by rw [hp'], by rw [hnum, hhandles, hzero], fun _ => by rw [hp']; exact hframe.2,
        fun hne => absurd hnum hne, fun hne => absurd hnum hne⟩
    · rw [if_neg hzero] at hp'
      have hnum : p'.numHandles = p.handlesAfter env.bus := by
        rw [hhandles, hp']
        show (p.slaveHandles ++ (fillMasterBuffer env.buffers d).table.slaveHandles).length = _
        rw [hfill.1]
      refine ⟨by rw [hp'], hnum, fun h0 => absurd (hhandles ▸ hnum ▸ h0) hzero, fun _ => ?_,
        fun _ => ?_⟩
      · rw [hp']
        exact hfill.2.1
      · rw [hp']
        exact hfill.2.2

/-! ## The invariants -/

theorem monitorBackupSize_enter (p : Process) (fresh : Area) :
    (Monitor.enter p.statics p.driver fresh).monitorBackupSize = p.backupSize := by
  unfold Monitor.enter backupSize
  cases p.statics with
  | none => rfl
  | some m => rfl

theorem monitorBackupSize_copySection (d : Driver) (m : Monitor) :
    (copySection d m).monitorBackupSize = m.monitorBackupSize := by
  unfold copySection
  split
  · rfl
  · rfl

/-- Sizes are whole numbers of slots, in every run. -/
structure Whole (p : Process) : Prop where
  image : slotSize ∣ p.driver.masterBufferSize
  backup : slotSize ∣ p.backupSize

/-- The image and the slots of all handles fit into the backup. -/
structure Fitting (p : Process) : Prop where
  whole : Whole p
  image : p.driver.masterBufferSize ≤ p.backupSize
  slots : slotSize * p.numHandles ≤ p.backupSize

theorem whole_start (slaves : Nat → SlaveHandler) (mem : Area) : Whole (Process.start slaves mem) :=
  ⟨Nat.dvd_zero _, Nat.dvd_zero _⟩

theorem fitting_start (slaves : Nat → SlaveHandler) (mem : Area) :
    Fitting (Process.start slaves mem) :=
  ⟨whole_start slaves mem, Nat.le_refl 0, Nat.le_refl 0⟩

variable {fresh : Area} {p p' : Process}

/-- Reading goes through the counts of all slots, once there is a baseline. -/
theorem mem_reads {w : Nat × Nat} :
    w ∈ (p.backupUse fresh).reads ↔
      (Monitor.enter p.statics p.driver fresh).Compares p.driver ∧
        ∃ i < p.numHandles, w = (slotSize * i + commandSize + encoderCountOffset, 4) := by
  show w ∈ (if (Monitor.enter p.statics p.driver fresh).Compares p.driver then _ else []) ↔ _
  by_cases hcompares : (Monitor.enter p.statics p.driver fresh).Compares p.driver
  · rw [if_pos hcompares, Layout.mem_map_walk]
    simp only [Nat.zero_add]
    exact ⟨fun h => ⟨hcompares, h⟩, fun h => h.2⟩
  · rw [if_neg hcompares]
    exact ⟨fun h => absurd h List.not_mem_nil, fun h => absurd h.1 hcompares⟩

theorem compares_enter_iff :
    (Monitor.enter p.statics p.driver fresh).Compares p.driver ↔
      p.Baseline ∧ p.driver.prevBuffer ≠ NULL := by
  refine and_congr_left' ?_
  unfold Baseline Monitor.enter
  cases p.statics with
  | none => simp
  | some m => simp

/-- The count of the last slave lies in the backup only if its whole slot does. -/
theorem reads_fit_iff (h : Whole p) :
    (∀ w ∈ (p.backupUse fresh).reads, w.1 + w.2 ≤ p.backupSize) ↔
      (p.Baseline ∧ p.driver.prevBuffer ≠ NULL → slotSize * p.numHandles ≤ p.backupSize) := by
  rw [← @compares_enter_iff fresh p]
  constructor
  · intro hreads hcompares
    obtain ⟨slots, hslots⟩ := h.backup
    rw [hslots] at hreads ⊢
    refine Nat.mul_le_mul_left _ ?_
    by_contra hlt
    have hlast := hreads _ (mem_reads.mpr ⟨hcompares, p.numHandles - 1, by omega, rfl⟩)
    simp only [slotSize_eq, commandSize, encoderCountOffset] at hlast
    omega
  · intro hslots w hw
    obtain ⟨hcompares, i, hi, rfl⟩ := mem_reads.mp hw
    have hslots := hslots hcompares
    simp only [slotSize_eq, commandSize, encoderCountOffset] at hslots ⊢
    omega

/-- A call stays inside the backup exactly if there is room when it is made. -/
theorem fits_iff_roomy (h : Whole p) : (p.backupUse fresh).Fits ↔ p.Roomy := by
  have hallocated : (p.backupUse fresh).allocated = p.backupSize :=
    monitorBackupSize_enter p fresh
  have hcopied : (p.backupUse fresh).copied ≤ p.backupSize ↔
      (p.driver.prevBuffer ≠ NULL → p.driver.masterBufferSize ≤ p.backupSize) := by
    show (if p.driver.prevBuffer ≠ NULL then p.driver.masterBufferSize else 0) ≤ _ ↔ _
    by_cases hprev : p.driver.prevBuffer ≠ NULL
    · rw [if_pos hprev]
      exact ⟨fun hle _ => hle, fun hle => hle hprev⟩
    · rw [if_neg hprev]
      exact ⟨fun _ hset => absurd hset hprev, fun _ => Nat.zero_le _⟩
  unfold BackupUse.Fits
  rw [hallocated, hcopied, reads_fit_iff h]
  rfl

theorem Fitting.roomy (h : Fitting p) : p.Roomy := ⟨fun _ => h.image, fun _ => h.slots⟩

theorem backupSize_monitorChanges (threshold : Int) :
    (p.monitorChanges fresh threshold).2.backupSize = p.backupSize :=
  (monitorBackupSize_copySection p.driver _).trans (monitorBackupSize_enter p fresh)

/-- After an initialisation that leaves slaves gathered, the backup has the room
there was for it. -/
theorem Initialized.backupSize {env : StartupEnv} (h : Initialized p env p')
    (hne : p'.numHandles ≠ 0) : p'.backupSize = p.room env.bus := by
  unfold Process.backupSize Process.room
  rw [h.statics]
  cases p.statics with
  | none => exact h.size hne
  | some m => rfl

/-- One that leaves none changes nothing. -/
theorem Initialized.backupSize_unfilled {env : StartupEnv} (h : Initialized p env p')
    (hzero : p'.numHandles = 0) : p'.backupSize = p.backupSize := by
  unfold Process.backupSize
  rw [h.statics, h.unfilled hzero]

theorem Whole.room (h : Whole p) (bus : Bus) : slotSize ∣ p.room bus := by
  have hwhole := h.backup
  unfold Process.backupSize at hwhole
  unfold Process.room
  cases hstatics : p.statics with
  | none => exact Nat.dvd_mul_right ..
  | some m =>
    rw [hstatics] at hwhole
    exact hwhole

theorem Whole.initialized (h : Whole p) {env : StartupEnv} (hinit : Initialized p env p') :
    Whole p' := by
  by_cases hzero : p'.numHandles = 0
  · refine ⟨?_, ?_⟩
    · rw [hinit.unfilled hzero]
      exact h.image
    · rw [hinit.backupSize_unfilled hzero]
      exact h.backup
  · refine ⟨?_, ?_⟩
    · rw [hinit.size hzero]
      exact Nat.dvd_mul_right ..
    · rw [hinit.backupSize hzero]
      exact h.room env.bus

/-- Calls after the initialisation leave the sizes alone. -/
theorem call_sizes {c : Call} (hcall : p.call fresh c = some p') (hlater : c.Later) :
    p'.driver.masterBufferSize = p.driver.masterBufferSize ∧
      p'.numHandles = p.numHandles ∧ p'.backupSize = p.backupSize := by
  cases c with
  | initializePr2EthercatSlaves env => exact absurd rfl (hlater env)
  | update c =>
    obtain rfl := eq_of_update hcall
    exact ⟨rfl, rfl, rfl⟩
  | monitorChanges threshold =>
    obtain rfl := Option.some.inj hcall
    exact ⟨rfl, rfl, backupSize_monitorChanges threshold⟩

/-- **Step lemma**, for every call. -/
theorem Whole.call (h : Whole p) {c : Call} (hcall : p.call fresh c = some p') : Whole p' := by
  cases c with
  | initializePr2EthercatSlaves env => exact h.initialized (Process.initialized hcall)
  | update | monitorChanges =>
    obtain ⟨himage, _, hbackup⟩ := call_sizes hcall nofun
    refine ⟨?_, ?_⟩
    · rw [himage]
      exact h.image
    · rw [hbackup]
      exact h.backup

theorem Fitting.initialized (h : Fitting p) {env : StartupEnv} (hinit : Initialized p env p')
    (hroom : p.handlesAfter env.bus = 0 ∨ (slotSize * env.bus.numSlaves ≤ p.room env.bus ∧
      slotSize * p.handlesAfter env.bus ≤ p.room env.bus)) : Fitting p' := by
  by_cases hzero : p'.numHandles = 0
  · have hsame := hinit.backupSize_unfilled hzero
    refine ⟨h.whole.initialized hinit, ?_, ?_⟩
    · rw [hinit.unfilled hzero, hsame]
      exact h.image
    · rw [hzero]
      exact Nat.zero_le _
  · have hbackup := hinit.backupSize hzero
    rcases hroom with hnone | ⟨himage, hslots⟩
    · exact absurd (hinit.handles.trans hnone) hzero
    · refine ⟨h.whole.initialized hinit, ?_, ?_⟩
      · rw [hinit.size hzero, hbackup]
        exact himage
      · rw [hinit.handles, hbackup]
        exact hslots

/-- **Step lemma**, for a call that is admitted. -/
theorem Fitting.call (h : Fitting p) {c : Call} (hadmits : p.Admits c)
    (hcall : p.call fresh c = some p') : Fitting p' := by
  cases c with
  | initializePr2EthercatSlaves env =>
    have hinit := Process.initialized hcall
    rcases hadmits with hmaster | hroom
    · have hnone : p.initializePr2EthercatSlaves env = none := by
        unfold Process.initializePr2EthercatSlaves
        rw [hmaster]
      exact absurd (hnone.symm.trans hcall) (by simp)
    · exact h.initialized hinit hroom
  | update | monitorChanges =>
    obtain ⟨himage, hhandles, hbackup⟩ := call_sizes hcall nofun
    refine ⟨h.whole.call hcall, ?_, ?_⟩
    · rw [himage, hbackup]
      exact h.image
    · rw [hhandles, hbackup]
      exact h.slots

/-- **Run lemmas.** A run is safe exactly if there is room at each call. -/
theorem Whole.safe_iff (calls : List Call) :
    ∀ {p : Process}, Whole p → (Safe fresh p calls ↔ RoomyCalls fresh p calls) := by
  induction calls with
  | nil =>
    intro p _
    exact Iff.rfl
  | cons c calls ih =>
    intro p h
    refine and_congr (forall_congr' fun _ => imp_congr_right fun _ => fits_iff_roomy h) ?_
    exact forall_congr' fun p' => imp_congr_right fun hcall => ih (h.call hcall)

/-- And there is, if each initialisation leaves enough. -/
theorem Fitting.safe (calls : List Call) :
    ∀ {p : Process}, Fitting p → Admitted fresh p calls → Safe fresh p calls := by
  induction calls with
  | nil =>
    intro p _ _
    exact trivial
  | cons c calls ih =>
    intro p h hadmitted
    exact ⟨fun _ _ => (fits_iff_roomy h.whole).mpr h.roomy,
      fun p' hcall => ih (h.call hadmitted.1 hcall) (hadmitted.2 p' hcall)⟩

/-! ## What is not admitted goes wrong -/

theorem initializePr2EthercatSlaves_isSome {env : StartupEnv}
    (h : initializeECatMaster env.master env.bus.numSlaves ≠ none) (p : Process) :
    ∃ p', p.initializePr2EthercatSlaves env = some p' := by
  unfold Process.initializePr2EthercatSlaves
  cases hmaster : initializeECatMaster env.master env.bus.numSlaves with
  | none => exact absurd hmaster h
  | some _ => exact ⟨_, rfl⟩

/-- Two calls of the monitor overrun a backup that is too small for the slots. -/
theorem not_safe_of_slots (h : Whole p) (hslots : p.backupSize < slotSize * p.numHandles)
    (hprev : p.driver.prevBuffer ≠ NULL) (t t' : Int) :
    ¬ Safe fresh p [.monitorChanges t, .monitorChanges t'] := by
  intro hsafe
  have hroomy := (hsafe.2 _ rfl).1 t' rfl
  rw [fits_iff_roomy (h.call (show p.call fresh (.monitorChanges t) = some _ from rfl))] at hroomy
  -- the first call has copied, so the second one compares
  have hbaseline : (p.monitorChanges fresh t).2.Baseline := by
    refine ⟨_, rfl, ?_⟩
    show (copySection p.driver _).monitorDeltaInit = true
    unfold copySection
    rw [if_pos hprev]
  have hfit := hroomy.2 ⟨hbaseline, hprev⟩
  rw [backupSize_monitorChanges] at hfit
  exact absurd hfit (Nat.not_le_of_lt hslots)

/-- The image is larger than the backup, and the copy overruns it. -/
theorem Initialized.not_fits {env : StartupEnv} (h : Initialized p env p') (hwhole : Whole p)
    (hne : p'.numHandles ≠ 0) (himage : p.room env.bus < slotSize * env.bus.numSlaves) :
    ¬ (p'.backupUse fresh).Fits := by
  rw [fits_iff_roomy (hwhole.initialized h)]
  intro hroomy
  have hfit := hroomy.1 (h.prev hne)
  rw [h.size hne, h.backupSize hne] at hfit
  exact absurd hfit (Nat.not_le_of_lt himage)

theorem Fitting.not_safe (h : Fitting p) {env : StartupEnv}
    (hnot : ¬ p.Admits (.initializePr2EthercatSlaves env)) (t t' : Int) :
    ¬ Safe fresh p
      [.initializePr2EthercatSlaves env, .monitorChanges t, .monitorChanges t'] := by
  intro hsafe
  have hmaster : initializeECatMaster env.master env.bus.numSlaves ≠ none :=
    fun hnone => hnot (Or.inl hnone)
  obtain ⟨p', hcall⟩ := initializePr2EthercatSlaves_isSome hmaster p
  have hinit := Process.initialized hcall
  have hrest := hsafe.2 p' hcall
  have hne : p'.numHandles ≠ 0 := by
    rw [hinit.handles]
    exact fun hzero => hnot (Or.inr (Or.inl hzero))
  have hbackup := hinit.backupSize hne
  rcases Nat.lt_or_ge (p.room env.bus) (slotSize * env.bus.numSlaves) with himage | himage
  · exact hinit.not_fits h.whole hne himage (hrest.1 t rfl)
  · refine not_safe_of_slots (h.whole.initialized hinit) ?_ (hinit.prev hne) t t' hrest
    rw [hbackup, hinit.handles]
    rcases Nat.lt_or_ge (p.room env.bus) (slotSize * p.handlesAfter env.bus) with hslots | hslots
    · exact hslots
    · exact absurd (Or.inr (Or.inr ⟨himage, hslots⟩)) hnot

theorem Fitting.exists_not_safe (calls : List Call) :
    ∀ {p : Process}, Fitting p → ¬ Admitted fresh p calls →
      ∃ pre, pre <+: calls ∧ ∀ t t',
        ¬ Safe fresh p (pre ++ [.monitorChanges t, .monitorChanges t']) := by
  induction calls with
  | nil =>
    intro p _ hnot
    exact absurd trivial hnot
  | cons c calls ih =>
    intro p h hnot
    by_cases hadmits : p.Admits c
    · -- the first call not admitted comes later
      have hlater : ∃ p', p.call fresh c = some p' ∧ ¬ Admitted fresh p' calls := by
        by_contra hall
        refine hnot ⟨hadmits, fun p' hcall => ?_⟩
        by_contra hp'
        exact hall ⟨p', hcall, hp'⟩
      obtain ⟨p', hcall, hp'⟩ := hlater
      obtain ⟨pre, hpre, hunsafe⟩ := ih (h.call hadmits hcall) hp'
      refine ⟨c :: pre, List.cons_prefix_cons.mpr ⟨rfl, hpre⟩, fun t t' hsafe => ?_⟩
      exact hunsafe t t' (hsafe.2 p' hcall)
    · cases c with
      | initializePr2EthercatSlaves env =>
        exact ⟨[.initializePr2EthercatSlaves env],
          List.cons_prefix_cons.mpr ⟨rfl, List.nil_prefix⟩, h.not_safe hadmits⟩
      | update _ => exact absurd trivial hadmits
      | monitorChanges _ => exact absurd trivial hadmits

/-! ## The runs of `main` -/

theorem admitted_of_later (calls : List Call) (h : ∀ c ∈ calls, c.Later) :
    ∀ p : Process, Admitted fresh p calls := by
  induction calls with
  | nil =>
    intro p
    exact trivial
  | cons c calls ih =>
    intro p
    obtain ⟨hc, hcalls⟩ := List.forall_mem_cons.mp h
    refine ⟨?_, fun p' _ => ih hcalls p'⟩
    cases c with
    | initializePr2EthercatSlaves env => exact absurd rfl (hc env)
    | update _ => exact trivial
    | monitorChanges _ => exact trivial

/-- `main` initialises once, before it starts the thread that monitors. -/
theorem admitted_of_once (slaves : Nat → SlaveHandler) (mem : Area) (env : StartupEnv)
    {calls : List Call} (h : ∀ c ∈ calls, c.Later) :
    Admitted fresh (Process.start slaves mem) (.initializePr2EthercatSlaves env :: calls) := by
  refine ⟨Or.inr (Or.inr ⟨Nat.le_refl _, ?_⟩), fun p' _ => admitted_of_later calls h p'⟩
  have hlen : (gatheredHandles env.bus).length ≤ env.bus.numSlaves := by
    have hle := (getSlaveHandles env.bus).2.length_le
    rw [show (getSlaveHandles env.bus).2.slaveHandles = gatheredHandles env.bus from
      handlesLoop_eq env.bus] at hle
    exact hle
  apply Nat.mul_le_mul_left
  show 0 + (gatheredHandles env.bus).length ≤ env.bus.numSlaves
  omega

/-- **The monitor's backup.** In every run whose calls are all admitted, no call
of `monitorChanges` overruns the backup; any other run can be broken off
somewhere so that one of the next two calls of `monitorChanges` does. And the run
itself overruns nothing exactly if there is room at its own calls. -/
theorem backup_not_overrun (slaves : Nat → SlaveHandler) (mem fresh : Area) (calls : List Call) :
    (Admitted fresh (Process.start slaves mem) calls →
      Safe fresh (Process.start slaves mem) calls) ∧
    (¬ Admitted fresh (Process.start slaves mem) calls →
      ∃ pre, pre <+: calls ∧ ∀ t t',
        ¬ Safe fresh (Process.start slaves mem)
          (pre ++ [.monitorChanges t, .monitorChanges t'])) ∧
    (Safe fresh (Process.start slaves mem) calls ↔
      RoomyCalls fresh (Process.start slaves mem) calls) := by
  have hstart := fitting_start slaves mem
  exact ⟨hstart.safe calls, hstart.exists_not_safe calls, hstart.whole.safe_iff calls⟩

/-- The backup of a monitor called before the initialisation has no bytes, and
the first call after it copies the image of one slave there. -/
theorem early_monitor_overruns :
    ¬ Safe (fun _ => 0) (Process.start oneBoardSlaves fun _ => 0)
      [.monitorChanges 1, .initializePr2EthercatSlaves refusingBoard, .monitorChanges 1] := by
  intro hsafe
  have hmaster : initializeECatMaster refusingBoard.master refusingBoard.bus.numSlaves ≠ none := by
    decide
  rcases initializePr2EthercatSlaves_isSome hmaster
    ((Process.start oneBoardSlaves fun _ => 0).monitorChanges (fun _ => 0) 1).2 with ⟨p', hcall⟩
  have hinit := Process.initialized hcall
  have hne : p'.numHandles ≠ 0 := by
    rw [hinit.handles]
    decide
  have hwhole : Whole ((Process.start oneBoardSlaves fun _ => 0).monitorChanges (fun _ => 0) 1).2 :=
    (whole_start _ _).call
      (show (Process.start _ _).call (fun _ => 0) (.monitorChanges 1) = some _ from rfl)
  exact hinit.not_fits hwhole hne (by decide) (((hsafe.2 _ rfl).2 p' hcall).1 1 rfl)

end Process

end Pr2Ethercat

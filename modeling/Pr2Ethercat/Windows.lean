import Pr2Ethercat.Attribution
import Pr2Ethercat.Startup

/-!
# The logical windows in the exchanged image

The slaves copy their commands out of a passing frame, and their statuses into
it, through the windows that `configureWG05fmmu` hands out. This file looks at
the windows as a whole, once `setMasterBuffer` has allocated the image they lie
in: they follow one another without gap from `0x10000` on, and end inside the
image, whatever other slaves are on the ring.

What the layout is for is said by `commands`: only read windows alter a frame,
and none of them covers a command, so a command comes back as it was sent. The
exchange of `Attribution`, in which the WG05 slaves store their statuses, is one
in which only read windows alter the image (`alteredOnlyBy_returned`).
-/

namespace Pr2Ethercat

open ByteArea Layout

/-- `[LogicalStartAddress, +Length)`, as start and length. -/
def EcFmmu.window (f : EcFmmu) : Nat × Nat := (f.logicalStartAddress.toNat, f.length.toNat)

/-- The slave copies the window out of the frame and never into it. -/
def EcFmmu.WriteOnly (f : EcFmmu) : Prop :=
  f.channelEnable = true ∧ f.writeEnable = true ∧ f.readEnable = false

/-- And the other way round. -/
def EcFmmu.ReadOnly (f : EcFmmu) : Prop :=
  f.channelEnable = true ∧ f.writeEnable = false ∧ f.readEnable = true

/-- The FMMU is an enabled read FMMU, and byte `a` of the image is in its window. -/
def EcFmmu.Alters (f : EcFmmu) (a : Nat) : Prop :=
  f.channelEnable = true ∧ f.readEnable = true ∧
    f.window.1 ≤ imageLogicalBase + a ∧ imageLogicalBase + a < f.window.1 + f.window.2

/-- Whatever differs in the image that comes `back` was altered by an enabled
read FMMU of one of the slaves `ring`. -/
def AlteredOnlyBy (d : Driver) (ring : List Nat) (sent back : Area) : Prop :=
  ∀ a, back a ≠ sent a → ∃ sh ∈ ring, ∃ f ∈ (d.slaves sh).fmmuConfig.getD [], f.Alters a

/-- The windows of the slaves `l`, in their order. -/
def fmmuWindows (d : Driver) (l : List Nat) : List (Nat × Nat) :=
  l.flatMap fun sh => ((d.slaves sh).fmmuConfig.getD []).map EcFmmu.window

/-- The WG05 slaves of the list, in ring order. -/
abbrev wg05Slaves (table : SlaveTable) (slaves : Nat → SlaveHandler) : List Nat :=
  table.slaveHandles.filter (isWG05 slaves)

/-- The windows of the WG05 slaves fill the beginning of the image, each slave's
command window directly before its status window; other slaves keep the
configuration they had; and commands come back from an exchange unaltered, if
the ring has no windows but these. -/
structure LaidOut (table : SlaveTable) (slaves : Nat → SlaveHandler) (d : Driver) : Prop where
  pairs : ∀ sh ∈ wg05Slaves table slaves, ∃ command status : EcFmmu,
    (d.slaves sh).fmmuConfig = some [command, status] ∧
      command.WriteOnly ∧ status.ReadOnly ∧
      command.window.2 = commandSize ∧ status.window.2 = statusSize ∧
      status.window.1 = command.window.1 + command.window.2
  count : (fmmuWindows d (wg05Slaves table slaves)).length = 2 * (wg05Slaves table slaves).length
  tiles : Tiles imageLogicalBase (fmmuWindows d (wg05Slaves table slaves))
    (imageLogicalBase + slotSize * (wg05Slaves table slaves).length)
  disjoint : (fmmuWindows d (wg05Slaves table slaves)).Pairwise fun w w' =>
    w.1 + w.2 ≤ w'.1 ∨ w'.1 + w'.2 ≤ w.1
  inside : ∀ w ∈ fmmuWindows d (wg05Slaves table slaves),
    imageLogicalBase ≤ w.1 ∧ w.1 + w.2 ≤ imageLogicalBase + d.masterBufferSize
  others : ∀ sh, sh ∉ wg05Slaves table slaves → d.slaves sh = slaves sh
  commands : ∀ ring : List Nat,
    (∀ sh ∈ ring, sh ∈ wg05Slaves table slaves ∨ (slaves sh).fmmuConfig = none) →
      ∀ sent back : Area, AlteredOnlyBy d ring sent back → ∀ k : Nat,
        slice back (slotSize * k) commandSize = slice sent (slotSize * k) commandSize

/-- What an FMMU stores, it alters. -/
theorem EcFmmu.alters_of_stores {f : EcFmmu} {size a : Nat} {bytes : List Byte}
    {w : Nat × List Byte} (hw : w ∈ f.stores size bytes) (hlo : w.1 ≤ a)
    (hhi : a < w.1 + w.2.length) : f.Alters a := by
  unfold EcFmmu.stores at hw
  split at hw
  next hread =>
    obtain ⟨hchannel, hread, hbase, _⟩ := hread
    obtain rfl := List.mem_singleton.mp hw
    have hlen : (bytes.take f.length.toNat).length ≤ f.length.toNat := List.length_take_le ..
    refine ⟨hchannel, hread, ?_, ?_⟩
    · simp only [EcFmmu.offset, EcFmmu.window] at hlo ⊢
      omega
    · simp only [EcFmmu.offset, EcFmmu.window] at hhi ⊢
      omega
  next => exact absurd hw List.not_mem_nil

/-- In the exchange of the statuses only read FMMUs of WG05 slaves alter the image. -/
theorem alteredOnlyBy_returned (d : Driver) (status : Nat → WG0XStatus) (sent : Area) :
    AlteredOnlyBy d (d.table.slaveHandles.filter (isWG05 d.slaves)) sent
      (returned d status sent) := by
  intro a hne
  by_contra hnone
  apply hne
  refine putAll_outside fun w hw => ?_
  obtain ⟨sh, hsh, hw⟩ := List.mem_flatMap.mp hw
  obtain ⟨f, hf, hw⟩ := List.mem_flatMap.mp hw
  by_contra hin
  exact hnone ⟨sh, hsh, f, hf, f.alters_of_stores hw (by omega) (by omega)⟩

/-! ## The windows of one slave -/

theorem map_window_wg05Windows {k : Nat} (hk : k ≤ 2 ^ 16) :
    (wg05Windows (windowStart k)).map EcFmmu.window =
      [(imageLogicalBase + slotSize * k, commandSize),
        (imageLogicalBase + slotSize * k + commandSize, statusSize)] := by
  have hcommand := toNat_windowStart hk
  have hstatus := toNat_windowStart_status hk
  show [((windowStart k).toNat, _), ((windowStart k + BitVec.ofNat 32 commandSize).toNat, _)] = _
  rw [hcommand, hstatus]
  rfl

/-- The block of the `k`-th slave is tiled. -/
theorem tiles_wg05Windows {k : Nat} (hk : k ≤ 2 ^ 16) :
    Tiles (imageLogicalBase + slotSize * k) ((wg05Windows (windowStart k)).map EcFmmu.window)
      (imageLogicalBase + slotSize * k + slotSize) := by
  rw [map_window_wg05Windows hk]
  exact ⟨rfl, rfl, Nat.add_assoc ..⟩

/-- Neither window of the `k`-th slave alters a command. -/
theorem not_alters_command {k i j : Nat} (hk : k ≤ 2 ^ 16) (hj : j < commandSize) {f : EcFmmu}
    (hf : f ∈ wg05Windows (windowStart k)) : ¬ f.Alters (slotSize * i + j) := by
  rintro ⟨_, hread, hlo, hhi⟩
  rcases List.mem_cons.mp hf with rfl | hf
  · exact absurd hread (by simp [commandFmmu])
  · obtain rfl := List.mem_singleton.mp hf
    -- the status window is all of slot `k` behind its command
    have hstart : (statusFmmu (windowStart k + BitVec.ofNat 32 commandSize)).window
        = (imageLogicalBase + slotSize * k + commandSize, statusSize) :=
      congrArg₂ Prod.mk (toNat_windowStart_status hk) rfl
    rw [hstart] at hlo hhi
    simp only [slotSize_eq, commandSize, statusSize] at hj hlo hhi
    omega

/-! ## All windows -/

section LaidOut

variable (env : BufferSetup) {table : SlaveTable} {slaves : Nat → SlaveHandler} (mem : Area)

/-- The driver after the three functions, on a list that is not empty. -/
theorem slaves_setMasterBuffer (hne : table.slaveHandles ≠ []) :
    (setMasterBuffer env (configured table slaves mem)).2.slaves
      = (bringUp env (configured table slaves mem)).slaves := by
  rw [setMasterBuffer_eq]
  rw [configured_numHandles, Ne, List.length_eq_zero_iff]
  exact hne

theorem masterBufferSize_setMasterBuffer (hne : table.slaveHandles ≠ []) :
    (setMasterBuffer env (configured table slaves mem)).2.masterBufferSize = imageSize table := by
  rw [setMasterBuffer_eq, configured_table]
  rw [configured_numHandles, Ne, List.length_eq_zero_iff]
  exact hne

/-- State changes leave the configuration as it is. -/
theorem fmmuConfig_bringUp {k : Nat} (hk : k < (wg05Slaves table slaves).length) :
    ((bringUp env (configured table slaves mem)).slaves (wg05Slaves table slaves)[k]).fmmuConfig
      = some (wg05Windows (windowStart k)) := by
  rw [bringUp_configured env mem hk, requests_eq]
  rfl

variable {d : Driver}

theorem tiles_fmmuWindows
    (hslaves : d.slaves = (bringUp env (configured table slaves mem)).slaves) :
    Tiles imageLogicalBase (fmmuWindows d (wg05Slaves table slaves))
      (imageLogicalBase + slotSize * (wg05Slaves table slaves).length) := by
  refine tiles_flatMap fun k hk => ?_
  have hlen : (wg05Slaves table slaves).length ≤ table.numSlaves := length_wg05s_le
  have hbus := table.numSlaves_le
  rw [hslaves, fmmuConfig_bringUp env mem hk]
  exact tiles_wg05Windows (by omega)

theorem length_fmmuWindows
    (hslaves : d.slaves = (bringUp env (configured table slaves mem)).slaves) :
    (fmmuWindows d (wg05Slaves table slaves)).length = 2 * (wg05Slaves table slaves).length := by
  have htwo : ∀ sh ∈ wg05Slaves table slaves,
      (((d.slaves sh).fmmuConfig.getD []).map EcFmmu.window).length = 2 := by
    intro sh hsh
    obtain ⟨k, hk, rfl⟩ := List.mem_iff_getElem.mp hsh
    rw [hslaves, fmmuConfig_bringUp env mem hk]
    rfl
  unfold fmmuWindows
  rw [List.length_flatMap, List.map_congr_left htwo, List.map_const', List.sum_replicate_nat,
    Nat.mul_comm]

/-- No slave whose windows are these alters a command, nor does one without any. -/
theorem commands_unaltered
    (hslaves : d.slaves = (bringUp env (configured table slaves mem)).slaves) {ring : List Nat}
    (hring : ∀ sh ∈ ring, sh ∈ wg05Slaves table slaves ∨ (slaves sh).fmmuConfig = none)
    {sent back : Area} (h : AlteredOnlyBy d ring sent back) (k : Nat) :
    slice back (slotSize * k) commandSize = slice sent (slotSize * k) commandSize := by
  refine slice_eq_iff.mpr fun j hj => ?_
  by_contra hne
  obtain ⟨sh, hsh, f, hf, halters⟩ := h _ hne
  rw [hslaves] at hf
  by_cases hin : sh ∈ wg05Slaves table slaves
  · obtain ⟨i, hi, rfl⟩ := List.mem_iff_getElem.mp hin
    have hlen : (wg05Slaves table slaves).length ≤ table.numSlaves := length_wg05s_le
    have hbus := table.numSlaves_le
    rw [fmmuConfig_bringUp env mem hi] at hf
    exact not_alters_command (by omega) hj hf halters
  · rcases hring sh hsh with hwg | hnone
    · exact hin hwg
    · rw [bringUp_configured_others env mem hin, hnone] at hf
      exact List.not_mem_nil hf

/-- The commands packed for an exchange of the statuses are there when it is over. -/
theorem command_returned
    (hslaves : d.slaves = (bringUp env (configured table slaves mem)).slaves)
    (htable : d.table = table) (status : Nat → WG0XStatus) (sent : Area) (k : Nat) :
    slice (returned d status sent) (slotSize * k) commandSize
      = slice sent (slotSize * k) commandSize := by
  refine commands_unaltered env mem hslaves (fun sh hsh => Or.inl ?_)
    (alteredOnlyBy_returned d status sent) k
  obtain ⟨hmem, hwg⟩ := List.mem_filter.mp hsh
  rw [htable] at hmem
  -- a slave that was not configured is still what it was
  by_contra hout
  have hsame := bringUp_configured_others env mem hout
  rw [isWG05, hslaves, hsame] at hwg
  exact hout (List.mem_filter.mpr ⟨hmem, hwg⟩)

end LaidOut

/-- **The layout.** After `findWG05slaves`, `configureWG05slaves` and
`setMasterBuffer` have run on any slaves, the windows are laid out. -/
theorem windows_laidOut (env : BufferSetup) (table : SlaveTable) (slaves : Nat → SlaveHandler)
    (mem : Area) (hne : table.slaveHandles ≠ []) :
    LaidOut table slaves (setMasterBuffer env (configured table slaves mem)).2 := by
  have hslaves : (setMasterBuffer env (configured table slaves mem)).2.slaves
      = (bringUp env (configured table slaves mem)).slaves := slaves_setMasterBuffer env mem hne
  have hsize : (setMasterBuffer env (configured table slaves mem)).2.masterBufferSize
      = imageSize table := masterBufferSize_setMasterBuffer env mem hne
  have htiles := tiles_fmmuWindows env mem hslaves
  have hlen : (wg05Slaves table slaves).length ≤ table.numSlaves := length_wg05s_le
  refine ⟨?_, length_fmmuWindows env mem hslaves, htiles, htiles.pairwise.imp Or.inl, ?_, ?_, ?_⟩
  · intro sh hsh
    obtain ⟨k, hk, rfl⟩ := List.mem_iff_getElem.mp hsh
    have hbus := table.numSlaves_le
    refine ⟨commandFmmu (windowStart k), statusFmmu (windowStart k + BitVec.ofNat 32 commandSize),
      ?_, ⟨rfl, rfl, rfl⟩, ⟨rfl, rfl, rfl⟩, rfl, rfl, ?_⟩
    · rw [hslaves]
      exact fmmuConfig_bringUp env mem hk
    · have hcommand := toNat_windowStart (k := k) (by omega)
      have hstatus := toNat_windowStart_status (k := k) (by omega)
      rw [← hcommand] at hstatus
      exact hstatus
  · intro w hw
    have hin := htiles.inside hw
    have hfit : slotSize * (wg05Slaves table slaves).length ≤ slotSize * table.numSlaves :=
      Nat.mul_le_mul_left _ hlen
    rw [hsize, imageSize]
    omega
  · intro sh hsh
    rw [hslaves]
    exact bringUp_configured_others env mem hsh
  · intro ring hring sent back h k
    exact commands_unaltered env mem hslaves hring h k

theorem couplerBus_laidOut :
    LaidOut couplerBus couplerSlaves
      (setMasterBuffer refusingBoard.buffers (configured couplerBus couplerSlaves fun _ => 0)).2 :=
  windows_laidOut refusingBoard.buffers couplerBus couplerSlaves (fun _ => 0) (by decide)

end Pr2Ethercat

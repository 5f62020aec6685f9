import Pr2Ethercat.MonitorChanges
import Pr2Ethercat.Routing

/-!
# Whose encoder count is read on a mixed bus

Every WG05 slave stores its 44-byte status through its read FMMU, that is into
the slot of its rank among the WG05 slaves, while `unpackCommand` and
`monitorChanges` take slot `i` for slave `i`. `returned` is the image that
comes back from such an exchange, whatever was sent, and `received` the driver
that has it in its buffer.

The counts are attributed to the right slaves, for every image the bus can
send back, exactly when no WG05 slave comes after a slave of another kind
(`statuses_attributed_iff`).
-/

namespace Pr2Ethercat

open ByteArea Layout

/-- The stores into the image made by the WG05 slaves of the ring, when slave
`sh` has the status `status sh` in its status memory. -/
def statusStores (d : Driver) (status : Nat → WG0XStatus) : List (Nat × List Byte) :=
  (d.table.slaveHandles.filter (isWG05 d.slaves)).flatMap fun sh =>
    ((d.slaves sh).fmmuConfig.getD []).flatMap fun f =>
      f.stores (slotSize * d.table.numSlaves) (status sh).bytes

/-- The image that comes back when `sent` went out. -/
def returned (d : Driver) (status : Nat → WG0XStatus) (sent : Area) : Area :=
  putAll (statusStores d status) sent

/-- The driver once that image has been received into the buffer at `image`
and both buffer pointers have seen it. -/
def received (table : SlaveTable) (slaves : Nat → SlaveHandler) (status : Nat → WG0XStatus)
    (sent mem : Area) (image : Nat) : Driver :=
  let d := configured table slaves mem
  { d with
    mem := (emlTxandrxPD mem (slotSize * table.numSlaves) image
      (some (returned d status sent))).2
    thisBuffer := image
    prevBuffer := image }

/-- For every WG05 slave `i`, the count that line `i` of `unpackCommand` prints
and turn `i` of `monitorChanges` compares is the one slave `i` wrote. -/
def AttributesTo (d : Driver) (m : Monitor) (status : Nat → WG0XStatus) : Prop :=
  ∀ (i : Nat) (hi : i < d.table.slaveHandles.length),
    isWG05 d.slaves d.table.slaveHandles[i] = true →
      (unpackCommand d).2[i]? = some (i, (status d.table.slaveHandles[i]).encoderCount) ∧
      (comparisons d m d.prevBuffer)[i]?.map (fun c => (c.slave, c.now))
        = some (i, (status d.table.slaveHandles[i]).encoderCount)

/-- A read FMMU with window `k` stores the status into slot `k`. -/
theorem stores_statusFmmu {size k : Nat} (s : WG0XStatus) (hk : k ≤ 2 ^ 16)
    (hsize : slotSize * (k + 1) ≤ size) :
    (statusFmmu (windowStart k + BitVec.ofNat 32 commandSize)).stores size s.bytes
      = [(slotSize * k + commandSize, s.bytes)] := by
  have hstart : (statusFmmu (windowStart k + BitVec.ofNat 32 commandSize)).logicalStartAddress.toNat
      = imageLogicalBase + slotSize * k + commandSize := toNat_windowStart_status hk
  have hlen : (statusFmmu (windowStart k + BitVec.ofNat 32 commandSize)).length.toNat
      = statusSize := rfl
  have hoff : (statusFmmu (windowStart k + BitVec.ofNat 32 commandSize)).offset
      = slotSize * k + commandSize := by
    unfold EcFmmu.offset
    rw [hstart, Nat.add_assoc, Nat.add_sub_cancel_left]
  have hinside : (statusFmmu (windowStart k + BitVec.ofNat 32 commandSize)).Inside size := by
    unfold EcFmmu.Inside
    rw [hstart, hlen]
    simp only [slotSize_eq, commandSize, statusSize] at hsize ⊢
    omega
  unfold EcFmmu.stores
  rw [if_pos ⟨rfl, rfl, hinside⟩, hoff, hlen, List.take_of_length_le (by simp)]

/-- A write FMMU stores nothing. -/
theorem stores_commandFmmu (start : BitVec 32) (size : Nat) (bytes : List Byte) :
    (commandFmmu start).stores size bytes = [] := by
  unfold EcFmmu.stores
  exact if_neg fun h => absurd h.2.1 (by simp [commandFmmu])

section Statuses

variable {table : SlaveTable} {slaves : Nat → SlaveHandler} {status : Nat → WG0XStatus}
  {sent mem : Area} {image : Nat}

/-- The WG05 slaves of the ring, in ring order. -/
private abbrev wg05s (table : SlaveTable) (slaves : Nat → SlaveHandler) : List Nat :=
  table.slaveHandles.filter (isWG05 slaves)

theorem length_wg05s_le : (wg05s table slaves).length ≤ table.numSlaves :=
  Nat.le_trans (List.length_filter_le ..) table.length_le

theorem statusStores_configured :
    statusStores (configured table slaves mem) status
      = (wg05s table slaves).flatMap fun sh =>
          (((configured table slaves mem).slaves sh).fmmuConfig.getD []).flatMap fun f =>
            f.stores (slotSize * table.numSlaves) (status sh).bytes := by
  have hsame : isWG05 (configured table slaves mem).slaves = isWG05 slaves := by
    funext sh
    exact isWG05_configured mem sh
  unfold statusStores
  rw [configured_table, hsame]

/-- The `k`-th WG05 slave makes one store: its status, into slot `k`. -/
theorem stores_of_wg05 {k : Nat} (hk : k < (wg05s table slaves).length) :
    ((((configured table slaves mem).slaves (wg05s table slaves)[k]).fmmuConfig.getD []).flatMap
        fun f => f.stores (slotSize * table.numSlaves) (status (wg05s table slaves)[k]).bytes)
      = [(slotSize * k + commandSize, (status (wg05s table slaves)[k]).bytes)] := by
  have hlen : (wg05s table slaves).length ≤ table.numSlaves := length_wg05s_le
  have hbus := table.numSlaves_le
  have hfit : slotSize * (k + 1) ≤ slotSize * table.numSlaves :=
    Nat.mul_le_mul_left _ (by omega)
  rw [configured_slave mem hk, Option.getD_some, wg05Windows, List.flatMap_cons, List.flatMap_cons,
    List.flatMap_nil, stores_commandFmmu, stores_statusFmmu _ (by omega) hfit]
  rfl

theorem mem_statusStores {w : Nat × List Byte} :
    w ∈ statusStores (configured table slaves mem) status ↔
      ∃ (k : Nat) (hk : k < (wg05s table slaves).length),
        w = (slotSize * k + commandSize, (status (wg05s table slaves)[k]).bytes) := by
  rw [statusStores_configured, List.mem_flatMap]
  constructor
  · intro ⟨sh, hsh, hw⟩
    obtain ⟨k, hk, h⟩ := List.mem_iff_getElem.mp hsh
    subst h
    rw [stores_of_wg05 hk] at hw
    exact ⟨k, hk, List.mem_singleton.mp hw⟩
  · intro ⟨k, hk, hw⟩
    refine ⟨(wg05s table slaves)[k], List.getElem_mem hk, ?_⟩
    rw [stores_of_wg05 hk]
    exact List.mem_singleton.mpr hw

theorem statusStores_apart :
    (statusStores (configured table slaves mem) status).Pairwise Apart := by
  rw [statusStores_configured, List.pairwise_flatMap]
  constructor
  · intro sh hsh
    obtain ⟨k, hk, h⟩ := List.mem_iff_getElem.mp hsh
    subst h
    rw [stores_of_wg05 hk]
    exact List.pairwise_singleton ..
  · rw [List.pairwise_iff_getElem]
    intro j k hj hk hjk w hw w' hw'
    rw [stores_of_wg05 hj, List.mem_singleton] at hw
    rw [stores_of_wg05 hk, List.mem_singleton] at hw'
    subst hw hw'
    left
    simp only [WG0XStatus.length_bytes, slotSize_eq, commandSize, statusSize]
    omega

/-- Slot `k` of the image that comes back holds the status of the `k`-th WG05. -/
theorem slice_returned {k : Nat} (hk : k < (wg05s table slaves).length) :
    slice (returned (configured table slaves mem) status sent)
        (slotSize * k + commandSize) statusSize
      = (status (wg05s table slaves)[k]).bytes := by
  have hmem : (slotSize * k + commandSize, (status (wg05s table slaves)[k]).bytes)
      ∈ statusStores (configured table slaves mem) status := mem_statusStores.mpr ⟨k, hk, rfl⟩
  have h := slice_putAll (m := sent) statusStores_apart hmem
  rw [WG0XStatus.length_bytes] at h
  exact h

/-- A slot behind the last window comes back as it was sent. -/
theorem slice_returned_behind {k : Nat} (hk : (wg05s table slaves).length ≤ k) :
    slice (returned (configured table slaves mem) status sent)
        (slotSize * k + commandSize) statusSize
      = slice sent (slotSize * k + commandSize) statusSize := by
  refine slice_eq_iff.mpr fun j _ => putAll_outside fun w hw => ?_
  obtain ⟨l, hl, h⟩ := mem_statusStores.mp hw
  subst h
  right
  simp only [WG0XStatus.length_bytes, slotSize_eq, commandSize, statusSize]
  omega

/-- What the driver reads in slot `i` of the received buffer. -/
theorem slice_received {i : Nat} (hi : i < table.slaveHandles.length) :
    slice (received table slaves status sent mem image).mem
        (image + slotSize * i + commandSize) statusSize
      = slice (returned (configured table slaves mem) status sent)
          (slotSize * i + commandSize) statusSize := by
  have hlen := table.length_le
  refine slice_eq_iff.mpr fun j hj => ?_
  show blit mem image (returned (configured table slaves mem) status sent) 0
    (slotSize * table.numSlaves) _ = _
  rw [show image + slotSize * i + commandSize + j
      = image + (slotSize * i + commandSize + j) by omega,
    blit_inside, Nat.zero_add]
  simp only [slotSize_eq, commandSize, statusSize] at hj ⊢
  omega

/-- Both readers take the count in slot `i` for slave `i`. -/
theorem attributesTo_received_iff (m : Monitor) :
    AttributesTo (received table slaves status sent mem image) m status ↔
      ∀ (i : Nat) (hi : i < table.slaveHandles.length), isWG05 slaves table.slaveHandles[i] = true →
        encoderCountAt (returned (configured table slaves mem) status sent)
            (slotSize * i + commandSize)
          = (status table.slaveHandles[i]).encoderCount := by
  have htable : (received table slaves status sent mem image).table = table := configured_table mem
  have hnum : (received table slaves status sent mem image).numHandles
      = table.slaveHandles.length := by rw [Driver.numHandles, htable]
  have hslaves : isWG05 (received table slaves status sent mem image).slaves = isWG05 slaves := by
    funext sh
    exact isWG05_configured mem sh
  unfold AttributesTo
  rw [htable, hslaves]
  refine forall_congr' fun i => forall_congr' fun hi => forall_congr' fun _ => ?_
  have hcount : encoderCountAt (received table slaves status sent mem image).mem
        (image + slotSize * i + commandSize)
      = encoderCountAt (returned (configured table slaves mem) status sent)
        (slotSize * i + commandSize) := encoderCountAt_congr (slice_received hi)
  rw [getElem?_unpackCommand (by rw [hnum]; exact hi),
    getElem?_comparisons m _ (by rw [hnum]; exact hi)]
  show some (i, encoderCountAt _ (image + slotSize * i + commandSize)) = _ ∧
    some (i, encoderCountAt _ (image + slotSize * i + commandSize)) = _ ↔ _
  rw [hcount, Option.some.injEq, Prod.mk.injEq]
  exact ⟨fun h => h.1.2, fun h => ⟨⟨rfl, h⟩, ⟨rfl, h⟩⟩⟩

end Statuses

/-- No WG05 slave comes after a slave of another kind. -/
def WG05First (slaves : Nat → SlaveHandler) (handles : List Nat) : Prop :=
  ∀ i, WG05At slaves handles i → ∀ j < i, WG05At slaves handles j

/-- A status that reports the encoder count `count` and zeros otherwise. -/
def statusWithCount (count : BitVec 32) : WG0XStatus where
  mode := 0
  digitalOut := 0
  programmedPwmValue := 0
  programmedCurrent := 0
  measuredCurrent := 0
  timestamp := 0
  encoderCount := count
  encoderIndexPos := 0
  numEncoderErrors := 0
  encoderStatus := 0
  calibrationReading := 0
  lastCalibrationRisingEdge := 0
  lastCalibrationFallingEdge := 0
  boardTemperature := 0
  bridgeTemperature := 0
  supplyVoltage := 0
  motorVoltage := 0
  packetCount := 0
  pad := 0
  checksum := 0

theorem bytes_statusWithCount_zero :
    (statusWithCount 0).bytes = List.replicate statusSize 0 := by
  have h2 : leBytes 2 0 = [0, 0] := by decide
  have h4 : leBytes 4 0 = [0, 0, 0, 0] := by decide
  show [0, 0] ++ leBytes 2 0 ++ leBytes 2 0 ++ leBytes 2 0 ++ leBytes 4 0 ++ leBytes 4 0
    ++ leBytes 4 0 ++ leBytes 2 0 ++ [0, 0] ++ leBytes 4 0 ++ leBytes 4 0 ++ leBytes 2 0
    ++ leBytes 2 0 ++ leBytes 2 0 ++ leBytes 2 0 ++ leBytes 2 0 ++ [0, 0] = _
  rw [h2, h4]
  rfl

/-- If the WG05 slave at index `i` has a smaller rank, slot `i` is not its own:
when no status but its own reports `1`, the count read there is `0`. -/
theorem misattributed {table : SlaveTable} {slaves : Nat → SlaveHandler} {i : Nat}
    (hi : i < table.slaveHandles.length)
    (hrank : rank (isWG05 slaves) table.slaveHandles i ≠ i)
    {status : Nat → WG0XStatus}
    (hstatus : ∀ sh, (status sh).encoderCount = if sh = table.slaveHandles[i] then 1 else 0)
    (mem : Area) :
    encoderCountAt (returned (configured table slaves mem) status fun _ => 0)
      (slotSize * i + commandSize) = 0 := by
  rcases Nat.lt_or_ge i (wg05s table slaves).length with hlt | hge
  · -- slot `i` is the window of the WG05 slave of rank `i`, some other slave
    rw [encoderCountAt_bytes (slice_returned hlt), hstatus, if_neg]
    intro hsame
    obtain ⟨k, hk, hwk, hrk⟩ := exists_rank_eq (p := isWG05 slaves) (l := table.slaveHandles)
      (k := i) (by rw [List.countP_eq_length_filter]; exact hlt)
    have hget := getElem?_filter_rank hk hwk
    rw [hrk] at hget
    obtain ⟨_, hgk⟩ := List.getElem?_eq_some_iff.mp hget
    have hki : k = i := (List.Nodup.getElem_inj_iff table.nodup).mp (hgk.symm.trans hsame)
    subst hki
    exact hrank hrk
  · -- no window covers slot `i`: the zeros that were sent come back
    have hzero : slice (fun _ => (0 : Byte)) (slotSize * i + commandSize) statusSize
        = (statusWithCount 0).bytes := by
      rw [bytes_statusWithCount_zero, slice, List.map_const', List.length_range]
    rw [encoderCountAt_bytes ((slice_returned_behind hge).trans hzero)]
    rfl

/-- **Status attribution.** The counts read for the WG05 slaves are their own,
for every image the bus can send back, if and only if no WG05 slave comes
after a slave of another kind. -/
theorem statuses_attributed_iff (table : SlaveTable) (slaves : Nat → SlaveHandler) :
    (∀ (status : Nat → WG0XStatus) (sent mem : Area) (image : Nat) (m : Monitor),
        AttributesTo (received table slaves status sent mem image) m status)
      ↔ WG05First slaves table.slaveHandles := by
  constructor
  · intro h i ⟨hi, hw⟩ j hj
    by_contra hnot
    have hrank : rank (isWG05 slaves) table.slaveHandles i ≠ i := by
      intro heq
      have hjl : j < table.slaveHandles.length := Nat.lt_trans hj hi
      exact hnot ⟨hjl, (rank_eq_self_iff (Nat.le_of_lt hi)).mp heq j hjl hj⟩
    -- the slave at `i` reports 1, every other slave and every byte sent is 0
    let status : Nat → WG0XStatus := fun sh =>
      statusWithCount (if sh = table.slaveHandles[i] then 1 else 0)
    have hread := (attributesTo_received_iff ⟨false, fun _ => 0, 0⟩).mp
      (h status (fun _ => 0) (fun _ => 0) 0 ⟨false, fun _ => 0, 0⟩) i hi hw
    have hone : (status table.slaveHandles[i]).encoderCount = 1 := by
      show (if table.slaveHandles[i] = table.slaveHandles[i] then (1 : BitVec 32) else 0) = 1
      rw [if_pos rfl]
    rw [misattributed hi hrank (fun _ => rfl), hone] at hread
    exact absurd hread (by decide)
  · intro hfirst status sent mem image m
    refine (attributesTo_received_iff m).mpr fun i hi hw => ?_
    have hrank : rank (isWG05 slaves) table.slaveHandles i = i :=
      (rank_eq_self_iff (Nat.le_of_lt hi)).mpr fun j _ hj => (hfirst i ⟨hi, hw⟩ j hj).2
    have hget := getElem?_filter_rank hi hw
    rw [hrank] at hget
    obtain ⟨hlt, hsame⟩ := List.getElem?_eq_some_iff.mp hget
    rw [encoderCountAt_bytes (slice_returned hlt), hsame]

/-- Behind a coupler, the count read for the first motor board is the second
board's: handler `2` reports 2 and handler `3` reports 3. -/
theorem statuses_misattributed :
    ¬ AttributesTo (received couplerBus couplerSlaves
        (fun sh => statusWithCount (BitVec.ofNat 32 sh)) (fun _ => 0) (fun _ => 0) 0x1000)
      ⟨true, fun _ => 0, 156⟩ (fun sh => statusWithCount (BitVec.ofNat 32 sh)) := by
  intro h
  have hown := (attributesTo_received_iff _).mp h 1 (by decide) (by decide)
  have hread : encoderCountAt (returned (configured couplerBus couplerSlaves fun _ => 0)
      (fun sh => statusWithCount (BitVec.ofNat 32 sh)) fun _ => 0)
      (slotSize * 1 + commandSize) = 3 :=
    encoderCountAt_bytes (slice_returned (k := 1) (by decide))
  rw [hread] at hown
  exact absurd hown (by decide)

end Pr2Ethercat

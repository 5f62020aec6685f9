import Pr2Ethercat.PackCommand

/-!
# Who reads which command on a mixed bus

`configureWG05slaves` numbers the logical windows along the *filtered* list:
the WG05 slave with `k` WG05 slaves before it owns image bytes
`52 * k .. 52 * k + 51`. `packCommand` numbers slots along the *whole* of
`slave_handles`. `Layout.rank` is the first numbering, the list index the
second, and this file compares the two on the command side; `Attribution`
does so on the status side.

The target's own command reaches the target exactly when every slave in front
of it is a WG05. A target that is out of range or not a WG05 is harmless
exactly when it is at least the number of WG05 slaves; below that, its slot is
some other slave's window and that slave is driven
(`packCommand_routes_iff`).
-/

namespace Pr2Ethercat

open ByteArea Layout

/-! ## The bus after configuration -/

/-- Slave number `i` of the list is a WG05. -/
def WG05At (slaves : Nat → SlaveHandler) (handles : List Nat) (i : Nat) : Prop :=
  ∃ hi : i < handles.length, isWG05 slaves handles[i] = true

/-- The driver after `findWG05slaves` and `configureWG05slaves` have run on the
gathered slaves. -/
def configured (table : SlaveTable) (slaves : Nat → SlaveHandler) (mem : Area) : Driver :=
  configureWG05slaves (findWG05slaves table.slaveHandles (Driver.gathered table slaves mem))

/-- Logical address of the command window of the `k`-th WG05 slave. -/
def windowStart (k : Nat) : BitVec 32 := 0x00010000 + BitVec.ofNat 32 (slotSize * k)

/-- No address wraps on a ring of 16-bit positions. -/
theorem toNat_windowStart {k : Nat} (hk : k ≤ 2 ^ 16) :
    (windowStart k).toNat = imageLogicalBase + slotSize * k := by
  have hbase : (0x00010000 : BitVec 32).toNat = 0x10000 := rfl
  unfold windowStart imageLogicalBase
  rw [BitVec.toNat_add, BitVec.toNat_ofNat, hbase]
  simp only [slotSize_eq]
  omega

theorem toNat_windowStart_status {k : Nat} (hk : k ≤ 2 ^ 16) :
    (windowStart k + BitVec.ofNat 32 commandSize).toNat
      = imageLogicalBase + slotSize * k + commandSize := by
  rw [BitVec.toNat_add, BitVec.toNat_ofNat, toNat_windowStart hk]
  simp only [slotSize_eq, commandSize, imageLogicalBase]
  omega

section Bus

variable {table : SlaveTable} {slaves : Nat → SlaveHandler} (mem : Area)

theorem findWG05slaves_gathered :
    (findWG05slaves table.slaveHandles (Driver.gathered table slaves mem)).wg05SlaveHandles
      = table.slaveHandles.filter (isWG05 slaves) := by
  show table.slaveHandles.foldl (findStep slaves) [] = _
  rw [foldl_findStep slaves _ _ table.nonNull, List.nil_append]

theorem configured_spec :
    Configured (table.slaveHandles.filter (isWG05 slaves))
      (findWG05slaves table.slaveHandles (Driver.gathered table slaves mem))
      (configured table slaves mem) := by
  unfold configured configureWG05slaves
  rw [findWG05slaves_gathered mem]
  refine configureLoop_spec (table.nodup.filter _) ?_ ?_
  · intro sh hsh
    exact table.nonNull sh (List.mem_of_mem_filter hsh)
  · intro sh hsh
    exact List.of_mem_filter hsh

@[simp] theorem configured_table : (configured table slaves mem).table = table := by
  rw [(configured_spec mem).eq]
  rfl

@[simp] theorem configured_numHandles :
    (configured table slaves mem).numHandles = table.slaveHandles.length := by
  unfold Driver.numHandles
  rw [configured_table]

/-- The `k`-th WG05 slave owns the `k`-th pair of windows. -/
theorem configured_slave {k : Nat} (hk : k < (table.slaveHandles.filter (isWG05 slaves)).length) :
    ((configured table slaves mem).slaves
        (table.slaveHandles.filter (isWG05 slaves))[k]).fmmuConfig
      = some (wg05Windows (windowStart k)) := by
  rw [(configured_spec mem).slave k hk]
  rfl

/-- Configuration leaves every product code alone. -/
theorem isWG05_configured (sh : Nat) :
    isWG05 (configured table slaves mem).slaves sh = isWG05 slaves sh := by
  by_cases hmem : sh ∈ table.slaveHandles.filter (isWG05 slaves)
  · obtain ⟨k, hk, h⟩ := List.mem_iff_getElem.mp hmem
    rw [← h, isWG05, (configured_spec mem).slave k hk]
    rfl
  · rw [isWG05, (configured_spec mem).others sh hmem]
    rfl

/-- In terms of the whole list: the windows of slave `i`, when it is a WG05,
are those of its rank among the WG05 slaves. -/
theorem configured_windows {i : Nat} (hi : i < table.slaveHandles.length)
    (hw : isWG05 slaves table.slaveHandles[i] = true) :
    ((configured table slaves mem).slaves table.slaveHandles[i]).fmmuConfig
      = some (wg05Windows (windowStart (rank (isWG05 slaves) table.slaveHandles i))) := by
  have hget := getElem?_filter_rank hi hw
  obtain ⟨hk, hsame⟩ := List.getElem?_eq_some_iff.mp hget
  rw [← hsame]
  exact configured_slave mem hk

end Bus

/-! ## Commands -/

/-- What slave `sh` finds in its command memory when the image at `image` has
gone round the ring: the bytes its write FMMU copies out of the frame. -/
def commandReceived (d : Driver) (image : Nat) (sh : Nat) : Option (List Byte) :=
  ((d.slaves sh).fmmuConfig.getD []).findSome? fun f =>
    f.receive d.mem image (slotSize * d.table.numSlaves)

/-- `slave_handles[i]` receives an enabled command. -/
def ReceivesEnabled (d : Driver) (image : Nat) (sh : Nat) : Prop :=
  ∃ command, commandReceived d image sh = some command ∧ Enables command

/-- The WG05 slaves that receive an enabled command are exactly the target. -/
def RoutesTo (d : Driver) (image : Nat) (target : BitVec 32) : Prop :=
  ∀ (i : Nat) (hi : i < d.table.slaveHandles.length),
    isWG05 d.slaves d.table.slaveHandles[i] = true →
      (ReceivesEnabled d image d.table.slaveHandles[i] ↔ i = target.toNat)

/-- The shared globals do not change during the call. -/
def PackEnv.steady (sin : Rat → Rat) (s : Shared) : PackEnv where
  sin := sin
  shared := fun _ => s

/-- The driver that has just packed a cycle's commands into `image`, whatever
the memory `mem` held. -/
def packed (table : SlaveTable) (slaves : Nat → SlaveHandler) (env : PackEnv) (mem : Area)
    (image : Nat) : Driver :=
  packCommand env { configured table slaves mem with mem := mem, thisBuffer := image }

/-- A write FMMU with window `k` copies slot `k`'s command out of the frame. -/
theorem receive_commandFmmu {mem : Area} {image size k : Nat} (hk : k ≤ 2 ^ 16)
    (hsize : slotSize * k + commandSize ≤ size) :
    (commandFmmu (windowStart k)).receive mem image size
      = some (slice mem (image + slotSize * k) commandSize) := by
  have hstart : (commandFmmu (windowStart k)).logicalStartAddress.toNat
      = imageLogicalBase + slotSize * k := toNat_windowStart hk
  have hlen : (commandFmmu (windowStart k)).length.toNat = commandSize := rfl
  have hoff : (commandFmmu (windowStart k)).offset = slotSize * k := by
    unfold EcFmmu.offset
    rw [hstart, Nat.add_sub_cancel_left]
  have hinside : (commandFmmu (windowStart k)).Inside size := by
    unfold EcFmmu.Inside
    rw [hstart, hlen]
    omega
  unfold EcFmmu.receive
  rw [if_pos ⟨rfl, rfl, hinside⟩, hoff, hlen]

section Commands

variable {table : SlaveTable} {slaves : Nat → SlaveHandler} {mem : Area} {image : Nat}

/-- **The slot a WG05 slave reads is its rank**, not its index. -/
theorem commandReceived_packed (env : PackEnv) {i : Nat} (hi : i < table.slaveHandles.length)
    (hw : isWG05 slaves table.slaveHandles[i] = true) :
    commandReceived (packed table slaves env mem image) image table.slaveHandles[i]
      = some (slotCommand env (rank (isWG05 slaves) table.slaveHandles i)).bytes := by
  have hwin := configured_windows mem hi hw
  have hlt : rank (isWG05 slaves) table.slaveHandles i < table.slaveHandles.length :=
    Nat.lt_of_le_of_lt (rank_le ..) hi
  have hslave : (packed table slaves env mem image).slaves = (configured table slaves mem).slaves :=
    rfl
  have htable : (packed table slaves env mem image).table = table := configured_table mem
  generalize rank (isWG05 slaves) table.slaveHandles i = k at hwin hlt ⊢
  have hk : k < table.numSlaves := Nat.lt_of_lt_of_le hlt table.length_le
  have hfit : slotSize * k + commandSize ≤ slotSize * table.numSlaves := by
    simp only [slotSize_eq, commandSize]
    omega
  unfold commandReceived
  rw [hslave, hwin, htable]
  show List.findSome? _ [commandFmmu (windowStart k), statusFmmu _] = _
  rw [List.findSome?_cons, receive_commandFmmu (by have := table.numSlaves_le; omega) hfit]
  refine congrArg some ?_
  exact slice_packCommand env { configured table slaves mem with mem := mem, thisBuffer := image }
    (by rw [Driver.numHandles, configured_table]; exact hlt)

/-- A WG05 slave is enabled exactly when its rank is the target. -/
theorem receivesEnabled_packed (table : SlaveTable) (sin : Rat → Rat) (s : Shared) {i : Nat}
    (hi : i < table.slaveHandles.length) (hw : isWG05 slaves table.slaveHandles[i] = true) :
    ReceivesEnabled (packed table slaves (PackEnv.steady sin s) mem image) image
        table.slaveHandles[i]
      ↔ rank (isWG05 slaves) table.slaveHandles i = s.targetSlave.toNat := by
  unfold ReceivesEnabled
  rw [commandReceived_packed (PackEnv.steady sin s) hi hw]
  simp only [Option.some.injEq, exists_eq_left']
  exact enables_slotCommand (PackEnv.steady sin s) _

/-- The target is lined up: a WG05 target has only WG05 slaves in front of it,
any other target lies behind the last window. -/
def TargetLinedUp (slaves : Nat → SlaveHandler) (handles : List Nat) (target : Nat) : Prop :=
  (WG05At slaves handles target → ∀ j < target, WG05At slaves handles j) ∧
  (¬ WG05At slaves handles target → handles.countP (isWG05 slaves) ≤ target)

/-- Between the two numberings: rank `t` is nobody's but index `t`'s exactly
when the target is lined up. -/
theorem rank_eq_iff_linedUp {handles : List Nat} {t : Nat} :
    (∀ (i : Nat) (hi : i < handles.length), isWG05 slaves handles[i] = true →
      (rank (isWG05 slaves) handles i = t ↔ i = t)) ↔ TargetLinedUp slaves handles t := by
  constructor
  · intro h
    refine ⟨fun ⟨ht, hw⟩ j hj => ?_, fun hnot => ?_⟩
    · have hrank : rank (isWG05 slaves) handles t = t := (h t ht hw).mpr rfl
      exact ⟨by omega, (rank_eq_self_iff (Nat.le_of_lt ht)).mp hrank j (by omega) hj⟩
    · by_contra hlt
      obtain ⟨i, hi, hw, hrank⟩ := exists_rank_eq (Nat.lt_of_not_le hlt)
      have hit : i = t := (h i hi hw).mp hrank
      subst hit
      exact hnot ⟨hi, hw⟩
  · intro ⟨hwg, hnot⟩ i hi hw
    by_cases ht : WG05At slaves handles t
    · obtain ⟨htlt, hwt⟩ := ht
      have hrank : rank (isWG05 slaves) handles t = t :=
        (rank_eq_self_iff (Nat.le_of_lt htlt)).mpr fun j _ hj => (hwg ⟨htlt, hwt⟩ j hj).2
      constructor
      · intro hi'
        exact rank_inj hi htlt hw hwt (by omega)
      · intro hi'
        subst hi'
        exact hrank
    · have hcount := hnot ht
      have hbelow := rank_lt_countP hi hw
      constructor
      · intro hi'
        omega
      · intro hi'
        subst hi'
        exact absurd ⟨hi, hw⟩ ht

/-- What a packed cycle does, in terms of ranks: a WG05 slave is enabled when
its rank is the target. -/
theorem routesTo_packed_iff_rank (sin : Rat → Rat) (s : Shared) :
    RoutesTo (packed table slaves (PackEnv.steady sin s) mem image) image s.targetSlave ↔
      ∀ (i : Nat) (hi : i < table.slaveHandles.length), isWG05 slaves table.slaveHandles[i] = true →
        (rank (isWG05 slaves) table.slaveHandles i = s.targetSlave.toNat
          ↔ i = s.targetSlave.toNat) := by
  have htable : (packed table slaves (PackEnv.steady sin s) mem image).table = table :=
    configured_table mem
  unfold RoutesTo
  rw [htable]
  constructor
  · intro h i hi hw
    exact (receivesEnabled_packed table sin s hi hw).symm.trans
      (h i hi ((isWG05_configured mem _).trans hw))
  · intro h i hi hw
    have hw' : isWG05 slaves table.slaveHandles[i] = true :=
      (isWG05_configured mem _).symm.trans hw
    exact (receivesEnabled_packed table sin s hi hw').trans (h i hi hw')

end Commands

/-- **Command routing.** After the slaves have been configured and a cycle's
commands packed, the WG05 slaves that receive an enabled command are exactly
`slave_handles[target_slave]` if and only if the target is lined up. -/
theorem packCommand_routes_iff (table : SlaveTable) (slaves : Nat → SlaveHandler)
    (sin : Rat → Rat) (s : Shared) (mem : Area) (image : Nat) :
    RoutesTo (packed table slaves (PackEnv.steady sin s) mem image) image s.targetSlave
      ↔ TargetLinedUp slaves table.slaveHandles s.targetSlave.toNat :=
  (routesTo_packed_iff_rank sin s).trans rank_eq_iff_linedUp

/-- A bus coupler followed by two motor boards. -/
def couplerBus : SlaveTable where
  numSlaves := 3
  slaveHandles := [1, 2, 3]
  length_le := by decide
  numSlaves_le := by decide
  nodup := by decide
  nonNull := by decide

/-- Handler `1` is the coupler, every other one a WG05. -/
def couplerSlaves (sh : Nat) : SlaveHandler where
  productCode := if sh = 1 then 0 else wg05ProductCode
  state := .ecInitState
  fmmuConfig := none
  pdConfig := none

/-- With the first motor board as the target, the second one is driven. -/
theorem packCommand_drives_wrong_board :
    ¬ RoutesTo (packed couplerBus couplerSlaves
        (PackEnv.steady (fun _ => 0) ⟨1, 10, ⟨0, 0⟩⟩) (fun _ => 0) 0x1000) 0x1000 1
    ∧ ReceivesEnabled (packed couplerBus couplerSlaves
        (PackEnv.steady (fun _ => 0) ⟨1, 10, ⟨0, 0⟩⟩) (fun _ => 0) 0x1000) 0x1000 3 := by
  constructor
  · intro h
    have hrank := (routesTo_packed_iff_rank (fun _ => 0) ⟨1, 10, ⟨0, 0⟩⟩).mp h 1
      (by decide) (by decide)
    exact absurd (hrank.mpr rfl) (by decide)
  · exact (receivesEnabled_packed couplerBus (fun _ => 0) ⟨1, 10, ⟨0, 0⟩⟩
      (show 2 < couplerBus.slaveHandles.length by decide) (by decide)).mpr (by decide)

end Pr2Ethercat

import Pr2Ethercat.Driver
import Pr2Ethercat.Lib.Layout

/-!
# Configuring the WG05 slaves

`findWG05slaves` filters the handles by product code, and `configureWG05slaves`
walks the filtered list: each slave gets two FMMUs, a write-only command window
and a read-only status window, at the next free logical addresses, and four
sync managers. The running address is the global `start_address`.

`configureLoop_spec` is the only fact later files use: slave `k` of the
filtered list ends up with its windows at `start_address + 52 * k`, and nothing
else is touched. The handles of the list must be different slaves, or a later
turn of the loop would overwrite an earlier configuration.
-/

namespace Pr2Ethercat

open ByteArea

/-! ## Constants of `wg05.h` -/

def commandPhyAddr : BitVec 16 := 0x1000
def statusPhyAddr : BitVec 16 := 0x2000
def mbxCommandPhyAddr : BitVec 16 := 0x1400
def mbxCommandSize : BitVec 16 := 512
def mbxStatusPhyAddr : BitVec 16 := 0x2400
def mbxStatusSize : BitVec 16 := 512

/-! ## Finding the WG05 slaves -/

/-- One turn of the loop in `findWG05slaves`. -/
def findStep (slaves : Nat → SlaveHandler) (found : List Nat) (sh : Nat) : List Nat :=
  if sh ≠ NULL then
    if isWG05 slaves sh = true then found ++ [sh] else found
  else found

/-- `findWG05slaves(slave_handles)`. -/
def findWG05slaves (slaveHandles : List Nat) (d : Driver) : Driver :=
  { d with wg05SlaveHandles := slaveHandles.foldl (findStep d.slaves) d.wg05SlaveHandles }

theorem foldl_findStep (slaves : Nat → SlaveHandler) :
    ∀ (l found : List Nat), (∀ sh ∈ l, sh ≠ NULL) →
      l.foldl (findStep slaves) found = found ++ l.filter (isWG05 slaves)
  | [], found, _ => (List.append_nil found).symm
  | sh :: l, found, h => by
    have hsh : sh ≠ NULL := h sh (List.mem_cons_self ..)
    rw [List.foldl_cons, foldl_findStep slaves l _ fun s hs => h s (List.mem_cons_of_mem _ hs)]
    unfold findStep
    rw [if_pos hsh]
    cases hw : isWG05 slaves sh with
    | true => rw [if_pos rfl, List.filter_cons_of_pos hw, List.append_assoc]; rfl
    | false => rw [if_neg (by simp), List.filter_cons_of_neg (by simp [hw])]

/-! ## One slave's windows and sync managers -/

/-- The write-only command window at logical address `start`. -/
def commandFmmu (start : BitVec 32) : EcFmmu where
  logicalStartAddress := start
  length := BitVec.ofNat 16 commandSize
  logicalStartBit := 0x00
  logicalEndBit := 0x07
  physicalStartAddress := commandPhyAddr
  physicalStartBit := 0x00
  readEnable := false
  writeEnable := true
  channelEnable := true

/-- The read-only status window at logical address `start`. -/
def statusFmmu (start : BitVec 32) : EcFmmu where
  logicalStartAddress := start
  length := BitVec.ofNat 16 statusSize
  logicalStartBit := 0x00
  logicalEndBit := 0x07
  physicalStartAddress := statusPhyAddr
  physicalStartBit := 0x00
  readEnable := true
  writeEnable := false
  channelEnable := true

/-- `configureWG05fmmu(sh)`: `start_address` moves past both windows. Adding
the `unsigned` sizes to the `int` keeps the low 32 bits. -/
def configureWG05fmmu (sh : Nat) (d : Driver) : Int × Driver :=
  if sh = NULL then (-1, d)
  else if isWG05 d.slaves sh = false then (-2, d)
  else
    -- the status window follows the command window
    let command := commandFmmu d.startAddress
    let startAddress := d.startAddress + BitVec.ofNat 32 commandSize
    let status := statusFmmu startAddress
    (0, { d with
      startAddress := startAddress + BitVec.ofNat 32 statusSize
      slaves := Function.update d.slaves sh ((d.slaves sh).setFmmuConfig [command, status]) })

/-- The four sync managers of `configureWG05pd`. -/
def wg05SyncManagers : List EcSyncMan :=
  [{ physicalStartAddress := commandPhyAddr, length := BitVec.ofNat 16 commandSize
     bufferType := .ecBuffered, direction := .ecWrittenFromMaster
     channelEnable := true, alEventEnable := true },
   { physicalStartAddress := statusPhyAddr, length := BitVec.ofNat 16 statusSize
     channelEnable := true },
   { physicalStartAddress := mbxCommandPhyAddr, length := mbxCommandSize
     bufferType := .ecQueued, direction := .ecWrittenFromMaster
     channelEnable := true, alEventEnable := true },
   { physicalStartAddress := mbxStatusPhyAddr, length := mbxStatusSize
     bufferType := .ecQueued, channelEnable := true }]

/-- `configureWG05pd(sh)`. -/
def configureWG05pd (sh : Nat) (d : Driver) : Int × Driver :=
  if sh = NULL then (-1, d)
  else if isWG05 d.slaves sh = false then (-2, d)
  else
    (0, { d with
      slaves := Function.update d.slaves sh ((d.slaves sh).setPdConfig wg05SyncManagers) })

/-! ## All of them -/

/-- The loop of `configureWG05slaves`. -/
def configureLoop : List Nat → Driver → Driver
  | [], d => d
  | sh :: rest, d => configureLoop rest (configureWG05pd sh (configureWG05fmmu sh d).2).2

/-- `configureWG05slaves()`. It has no `return` statement. Its callers drop the
value, but flowing off the end of it is undefined all the same: this is a build
in which the call comes back. -/
def configureWG05slaves (d : Driver) : Driver :=
  configureLoop d.wg05SlaveHandles d

/-- The two windows of the slave whose first logical address is `start`. -/
def wg05Windows (start : BitVec 32) : List EcFmmu :=
  [commandFmmu start, statusFmmu (start + BitVec.ofNat 32 commandSize)]

/-- The handler of a WG05 slave after both configuration calls. -/
def SlaveHandler.configured (s : SlaveHandler) (start : BitVec 32) : SlaveHandler :=
  (s.setFmmuConfig (wg05Windows start)).setPdConfig wg05SyncManagers

/-- One turn of the loop on a WG05 slave. -/
theorem configure_wg05 {sh : Nat} {d : Driver} (hn : sh ≠ NULL) (hw : isWG05 d.slaves sh = true) :
    (configureWG05pd sh (configureWG05fmmu sh d).2).2 =
      { d with
        startAddress := d.startAddress + BitVec.ofNat 32 slotSize
        slaves := Function.update d.slaves sh ((d.slaves sh).configured d.startAddress) } := by
  have hw' : ¬ isWG05 d.slaves sh = false := by simp [hw]
  have hfmmu : (configureWG05fmmu sh d).2 =
      { d with
        startAddress := d.startAddress + BitVec.ofNat 32 slotSize
        slaves := Function.update d.slaves sh
                    ((d.slaves sh).setFmmuConfig (wg05Windows d.startAddress)) } := by
    unfold configureWG05fmmu
    rw [if_neg hn, if_neg hw', slotSize, BitVec.ofNat_add, ← BitVec.add_assoc]
    rfl
  rw [hfmmu]
  unfold configureWG05pd
  rw [if_neg hn, if_neg (by simpa [isWG05, SlaveHandler.setFmmuConfig] using hw)]
  simp only [Function.update_self, Function.update_idem]
  rfl

/-- What the configuration loop over `l` does to the globals. -/
structure Configured (l : List Nat) (d d' : Driver) : Prop where
  eq : d' = { d with startAddress := d'.startAddress, slaves := d'.slaves }
  slave : ∀ (k : Nat) (hk : k < l.length),
    d'.slaves l[k] = (d.slaves l[k]).configured (d.startAddress + BitVec.ofNat 32 (slotSize * k))
  others : ∀ sh, sh ∉ l → d'.slaves sh = d.slaves sh

theorem configureLoop_spec :
    ∀ {l : List Nat} {d : Driver}, l.Nodup → (∀ sh ∈ l, sh ≠ NULL) →
      (∀ sh ∈ l, isWG05 d.slaves sh = true) → Configured l d (configureLoop l d)
  | [], d, _, _, _ => ⟨rfl, fun k hk => absurd hk (by simp), fun _ _ => rfl⟩
  | sh :: l, d, hnd, hnn, hw => by
    obtain ⟨hnotin, hnd'⟩ := List.nodup_cons.mp hnd
    rw [configureLoop,
      configure_wg05 (hnn sh (List.mem_cons_self ..)) (hw sh (List.mem_cons_self ..))]
    -- product codes survive the turn, so the rest of the list is still WG05
    have hw' : ∀ s ∈ l, isWG05 (Function.update d.slaves sh
        ((d.slaves sh).configured d.startAddress)) s = true := by
      intro s hs
      have hne : s ≠ sh := fun h => hnotin (h ▸ hs)
      rw [isWG05, Function.update_of_ne hne]
      exact hw s (List.mem_cons_of_mem _ hs)
    obtain ⟨heq, hslave, hothers⟩ := configureLoop_spec (d :=
        { d with
          startAddress := d.startAddress + BitVec.ofNat 32 slotSize
          slaves := Function.update d.slaves sh ((d.slaves sh).configured d.startAddress) })
      hnd' (fun s hs => hnn s (List.mem_cons_of_mem _ hs)) hw'
    refine ⟨heq, fun k hk => ?_, fun s hs => ?_⟩
    · cases k with
      | zero =>
        rw [List.getElem_cons_zero, hothers sh hnotin]
        simp
      | succ k =>
        have hk' : k < l.length := Nat.lt_of_succ_lt_succ hk
        have hne : l[k] ≠ sh := fun h => hnotin (h ▸ List.getElem_mem hk')
        rw [List.getElem_cons_succ, hslave k hk']
        simp only [Function.update_of_ne hne]
        rw [BitVec.add_assoc, ← BitVec.ofNat_add, Nat.mul_succ, Nat.add_comm slotSize]
    · have hne : s ≠ sh := fun h => hs (h ▸ List.mem_cons_self ..)
      rw [hothers s fun h => hs (List.mem_cons_of_mem _ h)]
      simp only [Function.update_of_ne hne]

end Pr2Ethercat

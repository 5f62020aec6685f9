import Mathlib.Data.Rat.Defs
import Pr2Ethercat.Configure

/-!
# `packCommand` and `unpackCommand`

Once per cycle the real-time thread fills the command half of every slot of
`this_buffer_`: all slots are cleared, and the slot whose index equals the
global `target_slave` gets an enabled current command. Both the index and the
pointer run over the whole of `slave_handles`, WG05 or not.

`target_slave`, `current_amplitude` and the clock are written by other threads
while the loop runs, so `PackEnv.shared i` is what turn `i` sees of them. The
current is computed in `double`; here it is exact rational arithmetic, with the
C library's sine as a parameter, and only the two narrowings at the end
(`double` to `int`, `int` to the 16-bit field) are machine arithmetic.

The loop is `packSlots`, which takes the number of handles; `packCommand` runs
it over those that are gathered. `slice_packSlots` and `packSlots_outside` say
everything about its effect: slot `i` holds the bytes of `slotCommand env i` whatever was there
before, and no byte outside the command windows changes. `unpackCommand` is the
read side with the same stride.
-/

namespace Pr2Ethercat

open ByteArea

/-! ## The commanded current -/

/-- `struct timeval`. -/
structure Timeval where
  tvSec : Int
  tvUsec : Int

/-- The globals that other threads write while `packCommand` runs. -/
structure Shared where
  targetSlave : BitVec 32
  currentAmplitude : Rat
  now : Timeval

/-- What `packCommand` reads besides the driver's own globals: the sine of the
C library, and the shared globals as turn `i` of its loop sees them. -/
structure PackEnv where
  sin : Rat → Rat
  shared : Nat → Shared

/-- `PI` of `wg05.h`. -/
def piWg05 : Rat := 314159265 / 100000000

def currentTimeInSec (now : Timeval) : Rat :=
  (now.tvSec : Rat) + (now.tvUsec : Rat) / (1000 * 1000)

def frequency : Rat := 1

/-- `(int)x` for a `double`: the integer part, and the value x86-64 produces
when that does not fit. -/
def toCInt (x : Rat) : BitVec 32 :=
  let t := if 0 ≤ x then x.floor else x.ceil
  if -2 ^ 31 ≤ t ∧ t < 2 ^ 31 then BitVec.ofInt 32 t else 0x80000000

/-- The value stored in `programmed_current_`. -/
def programmedCurrent (sin : Rat → Rat) (s : Shared) : BitVec 16 :=
  (toCInt ((s.currentAmplitude / 2)
    * (sin (2 * piWg05 * frequency * currentTimeInSec s.now) + 1))).setWidth 16

/-! ## One slot -/

/-- The command of the target slave. The record was cleared before, so the
fields not named are zero; the checksum covers the seven bytes before it. -/
def targetCommand (sin : Rat → Rat) (s : Shared) : WG0XCommand :=
  let c : WG0XCommand :=
    { programmedCurrent := programmedCurrent sin s
      mode := modeEnable ||| modeCurrent
      digitalOut := 0 }
  { c with checksum := (rotateRight8 (computeChecksum c.bytes (commandSize - 1))).setWidth 8 }

/-- One turn of the loop, at `slot = (i, this_buffer)`. -/
def packStep (env : PackEnv) (mem : Area) (slot : Nat × Nat) : Area :=
  let mem := put mem slot.2 (List.replicate commandSize 0)
  -- `target_slave` is an index into `slave_handles`
  if slot.1 = (env.shared slot.1).targetSlave.toNat then
    put mem slot.2 (targetCommand env.sin (env.shared slot.1)).bytes
  else mem

/-- The loop of `packCommand`, for `n` handles. -/
def packSlots (env : PackEnv) (n : Nat) (d : Driver) : Driver :=
  { d with mem := (Layout.walk slotSize n 0 d.thisBuffer).foldl (packStep env) d.mem }

/-- `packCommand()`. -/
def packCommand (env : PackEnv) (d : Driver) : Driver := packSlots env d.numHandles d

/-- The command that slot `i` is left with. -/
def slotCommand (env : PackEnv) (i : Nat) : WG0XCommand :=
  if i = (env.shared i).targetSlave.toNat then targetCommand env.sin (env.shared i) else {}

theorem packStep_eq (env : PackEnv) (mem : Area) (slot : Nat × Nat) :
    packStep env mem slot = put mem slot.2 (slotCommand env slot.1).bytes := by
  unfold packStep slotCommand
  by_cases h : slot.1 = (env.shared slot.1).targetSlave.toNat
  · rw [if_pos h, if_pos h]
    exact put_put (by simp)
  · rw [if_neg h, if_neg h]
    rfl

/-- Only the target's command enables its slave. -/
theorem enables_slotCommand (env : PackEnv) (i : Nat) :
    Enables (slotCommand env i).bytes ↔ i = (env.shared i).targetSlave.toNat := by
  unfold slotCommand
  by_cases h : i = (env.shared i).targetSlave.toNat
  · rw [if_pos h]
    refine ⟨fun _ => h, fun _ => ?_⟩
    show (modeEnable ||| modeCurrent) &&& modeEnable ≠ 0
    decide
  · rw [if_neg h]
    refine ⟨fun hen => absurd ?_ hen, fun hi => absurd hi h⟩
    show (0 : Byte) &&& modeEnable = 0
    decide

/-! ## The whole loop -/

/-- The stores of a `packCommand` over `n` slots from `image` on. -/
def commandStores (env : PackEnv) (n : Nat) (image : Nat) : List (Nat × List Byte) :=
  (List.range n).map fun i => (image + slotSize * i, (slotCommand env i).bytes)

theorem packSlots_mem (env : PackEnv) (n : Nat) (d : Driver) :
    (packSlots env n d).mem = putAll (commandStores env n d.thisBuffer) d.mem := by
  have hstep : packStep env = fun m s => put m s.2 (slotCommand env s.1).bytes := by
    funext m s
    exact packStep_eq env m s
  unfold packSlots putAll commandStores
  rw [hstep, Layout.walk_eq_map, List.foldl_map, List.foldl_map]
  simp only [Nat.zero_add]

theorem mem_commandStores {env : PackEnv} {n : Nat} {image : Nat} {w : Nat × List Byte} :
    w ∈ commandStores env n image ↔
      ∃ i < n, w = (image + slotSize * i, (slotCommand env i).bytes) := by
  unfold commandStores
  simp only [List.mem_map, List.mem_range]
  constructor
  · intro ⟨i, hi, h⟩
    subst h
    exact ⟨i, hi, rfl⟩
  · intro ⟨i, hi, h⟩
    subst h
    exact ⟨i, hi, rfl⟩

theorem commandStores_apart (env : PackEnv) (n : Nat) (image : Nat) :
    (commandStores env n image).Pairwise Apart := by
  unfold commandStores
  rw [List.pairwise_map]
  refine List.pairwise_lt_range.imp fun {i j} hij => Or.inl ?_
  simp only [WG0XCommand.length_bytes, commandSize, slotSize_eq]
  omega

/-- **Slot `i` after the loop**: the bytes of its command, whatever the buffer
held before. -/
theorem slice_packSlots (env : PackEnv) {n : Nat} (d : Driver) {i : Nat} (hi : i < n) :
    slice (packSlots env n d).mem (d.thisBuffer + slotSize * i) commandSize
      = (slotCommand env i).bytes := by
  rw [packSlots_mem]
  have hmem : (d.thisBuffer + slotSize * i, (slotCommand env i).bytes)
      ∈ commandStores env n d.thisBuffer := mem_commandStores.mpr ⟨i, hi, rfl⟩
  have h := slice_putAll (m := d.mem) (commandStores_apart env n d.thisBuffer) hmem
  rw [WG0XCommand.length_bytes] at h
  exact h

theorem slice_packCommand (env : PackEnv) (d : Driver) {i : Nat} (hi : i < d.numHandles) :
    slice (packCommand env d).mem (d.thisBuffer + slotSize * i) commandSize
      = (slotCommand env i).bytes := slice_packSlots env d hi

/-- **Frame of the loop**: a byte in no command window is left alone. -/
theorem packSlots_outside (env : PackEnv) {n : Nat} (d : Driver) {a : Nat}
    (h : ∀ i < n, a < d.thisBuffer + slotSize * i ∨ d.thisBuffer + slotSize * i + commandSize ≤ a) :
    (packSlots env n d).mem a = d.mem a := by
  rw [packSlots_mem]
  refine putAll_outside fun w hw => ?_
  obtain ⟨i, hi, rfl⟩ := mem_commandStores.mp hw
  rw [WG0XCommand.length_bytes]
  exact h i hi

theorem packCommand_outside (env : PackEnv) (d : Driver) {a : Nat}
    (h : ∀ i < d.numHandles,
      a < d.thisBuffer + slotSize * i ∨ d.thisBuffer + slotSize * i + commandSize ≤ a) :
    (packCommand env d).mem a = d.mem a := packSlots_outside env d h

/-- Byte `k` of an image belongs to none of the commands of its first `n` slots. -/
def OutsideCommands (n k : Nat) : Prop :=
  ∀ i < n, k < slotSize * i ∨ slotSize * i + commandSize ≤ k

theorem outsideCommands_status (n i : Nat) {j : Nat} (hj : j < statusSize) :
    OutsideCommands n (slotSize * i + commandSize + j) := by
  intro k _
  simp only [slotSize_eq, commandSize, statusSize] at hj ⊢
  -- the status of slot `i` ends before every later command and starts after the others
  rcases Nat.lt_or_ge i k with hik | hki
  · left; omega
  · right; omega

/-- The packed image keeps every byte outside its commands. -/
theorem packCommand_keeps (env : PackEnv) (d : Driver) {k : Nat}
    (hk : OutsideCommands d.numHandles k) :
    (packCommand env d).mem (d.thisBuffer + k) = d.mem (d.thisBuffer + k) := by
  refine packCommand_outside env d fun i hi => ?_
  have hout := hk i hi
  omega

/-- An image with the commands of its first `n` slots filled in. -/
def withCommands (env : PackEnv) (n : Nat) (image : Area) : Area :=
  putAll (commandStores env n 0) image

theorem withCommands_outside {env : PackEnv} {n : Nat} {image : Area} {k : Nat}
    (hk : OutsideCommands n k) : withCommands env n image k = image k := by
  refine putAll_outside fun w hw => ?_
  obtain ⟨i, hi, rfl⟩ := mem_commandStores.mp hw
  rw [WG0XCommand.length_bytes, Nat.zero_add]
  exact hk i hi

theorem withCommands_congr {env : PackEnv} {n : Nat} {image image' : Area} {k : Nat}
    (h : OutsideCommands n k → image k = image' k) :
    withCommands env n image k = withCommands env n image' k := by
  refine putAll_congr _ fun hout => h fun i hi => ?_
  have hslot := hout _ (mem_commandStores.mpr ⟨i, hi, rfl⟩)
  rw [WG0XCommand.length_bytes] at hslot
  simpa only [Nat.zero_add] using hslot

/-- **The packed image**, read from `this_buffer_` on. -/
theorem packCommand_image (env : PackEnv) (d : Driver) (k : Nat) :
    (packCommand env d).mem (d.thisBuffer + k)
      = withCommands env d.numHandles (fun j => d.mem (d.thisBuffer + j)) k := by
  have hstores : commandStores env d.numHandles d.thisBuffer
      = (commandStores env d.numHandles 0).map fun w => (d.thisBuffer + w.1, w.2) := by
    unfold commandStores
    rw [List.map_map]
    refine List.map_congr_left fun i _ => ?_
    simp only [Function.comp_apply, Nat.zero_add]
  show (packSlots env d.numHandles d).mem (d.thisBuffer + k) = _
  rw [packSlots_mem, hstores]
  exact putAll_add ..

/-! ## Reading the statuses back -/

/-- `unpackCommand()`: its return code and the lines `(slave, encoder count)` it
prints. -/
def unpackCommand (d : Driver) : Int × List (Nat × BitVec 32) :=
  if d.numHandles = 0 then (-1, [])
  else
    (0, (Layout.walk slotSize d.numHandles 0 d.thisBuffer).map fun slot =>
      (slot.1, encoderCountAt d.mem (slot.2 + commandSize)))

/-- Line `i` of `unpackCommand` reads slot `i` of `this_buffer_`. -/
theorem getElem?_unpackCommand {d : Driver} {i : Nat} (hi : i < d.numHandles) :
    (unpackCommand d).2[i]?
      = some (i, encoderCountAt d.mem (d.thisBuffer + slotSize * i + commandSize)) := by
  unfold unpackCommand
  rw [if_neg (by omega), Layout.walk_eq_map, List.map_map, List.getElem?_map,
    List.getElem?_range hi]
  simp only [Option.map_some, Function.comp_apply, Nat.zero_add]

end Pr2Ethercat

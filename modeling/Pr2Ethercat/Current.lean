import Mathlib.Data.Rat.Floor
import Mathlib.Tactic.Linarith
import Pr2Ethercat.CommandImage

/-!
# The programmed current and the requested amplitude

The input loop of `main` accepts every positive amplitude, and `packCommand`
turns amplitude and sine into a current between 0 and the amplitude. The
current is narrowed twice on its way into the command, to `int` and to the
16-bit `programmed_current_`, and nothing checks that it fits.

`toInt_narrow_eq_iff` is the arithmetic: what is left is the integer part
exactly below `2 ^ 15`. Read back from the packed slot, this makes the current
follow the sine as it should for every phase if and only if the amplitude
itself is below `2 ^ 15` (`programmedCurrent_within_iff`).
-/

namespace Pr2Ethercat

open ByteArea

/-! ## The input loop of `main` -/

/-- One turn on the input `amplitude`: the globals, and whether the loop goes on. -/
def inputTurn (amplitude : Rat) (s : Shared) : Shared × Bool :=
  if amplitude > 0 then ({ s with currentAmplitude := amplitude }, true) else (s, false)

/-- The loop, over the amplitudes that are typed in. -/
def inputLoop : List Rat → Shared → Shared
  | [], s => s
  | amplitude :: rest, s =>
    let turn := inputTurn amplitude s
    if turn.2 = true then inputLoop rest turn.1 else turn.1

/-- Whatever is typed in, the amplitude stays positive, which it is at the start. -/
theorem inputLoop_pos (inputs : List Rat) :
    ∀ s : Shared, 0 < s.currentAmplitude → 0 < (inputLoop inputs s).currentAmplitude := by
  induction inputs with
  | nil =>
    intro s h
    exact h
  | cons amplitude rest ih =>
    intro s h
    by_cases hpos : amplitude > 0
    · rw [inputLoop, inputTurn, if_pos hpos]
      exact ih _ hpos
    · rw [inputLoop, inputTurn, if_neg hpos]
      exact h

/-! ## The two narrowings -/

/-- `(current_amplitude/2.0) * (sin(..) + 1.0)`. -/
def commandedCurrent (amplitude sine : Rat) : Rat := amplitude / 2 * (sine + 1)

/-- From `double` to `int` to `int16_t`. -/
def narrow (x : Rat) : BitVec 16 := (toCInt x).setWidth 16

theorem toInt_narrow {x : Rat} (h : 0 ≤ x) (hlt : x < 32768) : (narrow x).toInt = ⌊x⌋ := by
  have hlo : 0 ≤ ⌊x⌋ := Int.floor_nonneg.mpr h
  have hhi : ⌊x⌋ < 32768 := Int.floor_lt.mpr (by exact_mod_cast hlt)
  have hint : toCInt x = BitVec.ofInt 32 ⌊x⌋ := by
    unfold toCInt
    rw [if_pos h]
    show (if -2 ^ 31 ≤ ⌊x⌋ ∧ ⌊x⌋ < 2 ^ 31 then _ else _) = _
    rw [if_pos (by omega)]
    rfl
  have hnat : ((BitVec.ofInt 32 ⌊x⌋).toNat : Int) = ⌊x⌋ := by
    rw [BitVec.toNat_ofInt]
    omega
  unfold narrow
  rw [hint, BitVec.toInt_setWidth, hnat]
  apply Int.bmod_eq_of_le
  · omega
  · omega

/-- The integer part survives exactly if it fits into the field. -/
theorem toInt_narrow_eq_iff {x : Rat} (h : 0 ≤ x) : (narrow x).toInt = ⌊x⌋ ↔ x < 32768 := by
  constructor
  · intro heq
    have hfield : (narrow x).toInt < 2 ^ 15 := BitVec.toInt_lt
    have hfloor : ⌊x⌋ < (32768 : Int) := by omega
    exact_mod_cast Int.floor_lt.mp hfloor
  · exact toInt_narrow h

/-! ## The current in the packed command -/

/-- Bytes of the command before `programmed_current_`. -/
def programmedCurrentOffset : Nat := 4

/-- The signed field `programmed_current_` of the command at `slot`. -/
def programmedCurrentAt (mem : Area) (slot : Nat) : Int :=
  (BitVec.ofNat 16 (leNat (slice mem (slot + programmedCurrentOffset) 2))).toInt

/-- The same cycle, at a moment when the sine is `sine`. -/
def PackEnv.withSine (env : PackEnv) (sine : Rat) : PackEnv := { env with sin := fun _ => sine }

/-- The current that `packCommand` leaves in slot `i`, in terms of the sine. -/
def currentLeft (env : PackEnv) (d : Driver) (i : Nat) (sine : Rat) : Int :=
  programmedCurrentAt (packCommand (env.withSine sine) d).mem (d.thisBuffer + slotSize * i)

/-- At the start of a command, the read returns the field that was packed. -/
theorem programmedCurrentAt_bytes {mem : Area} {slot : Nat} {c : WG0XCommand}
    (h : slice mem slot commandSize = c.bytes) :
    programmedCurrentAt mem slot = c.programmedCurrent.toInt := by
  have hfield : (c.bytes.drop programmedCurrentOffset).take 2
      = leBytes 2 c.programmedCurrent.toNat := by
    simp [WG0XCommand.bytes, leBytes, programmedCurrentOffset]
  unfold programmedCurrentAt
  rw [slice_add mem slot (show programmedCurrentOffset + 2 ≤ commandSize by decide), h, hfield,
    ofNat_leNat_leBytes 2 rfl]

section Current

variable (env : PackEnv) (d : Driver) {i : Nat}

/-- What the target's command is left with. -/
theorem currentLeft_target (hi : i < d.numHandles)
    (htarget : (env.shared i).targetSlave.toNat = i) (sine : Rat) :
    currentLeft env d i sine
      = (narrow (commandedCurrent (env.shared i).currentAmplitude sine)).toInt := by
  have hslot : slotCommand (env.withSine sine) i
      = targetCommand (env.withSine sine).sin (env.shared i) := if_pos htarget.symm
  exact programmedCurrentAt_bytes ((slice_packCommand (env.withSine sine) d hi).trans
    (congrArg WG0XCommand.bytes hslot))

end Current

/-! ## Within the amplitude -/

/-- The current follows the sine between 0 and the amplitude. -/
structure WithinAmplitude (amplitude : Rat) (current : Rat → Int) : Prop where
  integerPart : ∀ s, -1 ≤ s → s ≤ 1 → current s = ⌊commandedCurrent amplitude s⌋
  nonneg : ∀ s, -1 ≤ s → s ≤ 1 → 0 ≤ current s
  le_amplitude : ∀ s, -1 ≤ s → s ≤ 1 → (current s : Rat) ≤ amplitude
  mono : ∀ s s', -1 ≤ s → s ≤ s' → s' ≤ 1 → current s ≤ current s'

theorem commandedCurrent_mono {a s s' : Rat} (ha : 0 < a) (h : s ≤ s') :
    commandedCurrent a s ≤ commandedCurrent a s' := by
  unfold commandedCurrent
  apply mul_le_mul_of_nonneg_left _ (by linarith)
  linarith

theorem commandedCurrent_one (a : Rat) : commandedCurrent a 1 = a := by
  unfold commandedCurrent
  ring

theorem commandedCurrent_nonneg {a s : Rat} (ha : 0 < a) (hs : -1 ≤ s) :
    0 ≤ commandedCurrent a s := by
  unfold commandedCurrent
  apply mul_nonneg
  · linarith
  · linarith

/-- A function that takes the integer part stays within the amplitude. -/
theorem withinAmplitude_of_integerPart {a : Rat} (ha : 0 < a) {current : Rat → Int}
    (h : ∀ s, -1 ≤ s → s ≤ 1 → current s = ⌊commandedCurrent a s⌋) :
    WithinAmplitude a current := by
  refine ⟨h, ?_, ?_, ?_⟩
  · intro s hlo hhi
    rw [h s hlo hhi]
    exact Int.floor_nonneg.mpr (commandedCurrent_nonneg ha hlo)
  · intro s hlo hhi
    rw [h s hlo hhi]
    calc ((⌊commandedCurrent a s⌋ : Int) : Rat)
        ≤ commandedCurrent a s := Int.floor_le _
      _ ≤ commandedCurrent a 1 := commandedCurrent_mono ha hhi
      _ = a := commandedCurrent_one a
  · intro s s' hlo hss hhi
    rw [h s hlo (hss.trans hhi), h s' (hlo.trans hss) hhi]
    exact Int.floor_mono (commandedCurrent_mono ha hss)

/-- **The programmed current.** For a positive amplitude, the value left in the
target's command is the integer part of the commanded current if and only if
that is below `2 ^ 15`; and it follows the sine within the amplitude over all
phases if and only if the amplitude is. -/
theorem programmedCurrent_within_iff (env : PackEnv) (d : Driver) (i : Nat)
    (hi : i < d.numHandles) (htarget : (env.shared i).targetSlave.toNat = i)
    (hpos : 0 < (env.shared i).currentAmplitude) :
    (∀ s, -1 ≤ s → s ≤ 1 →
      (currentLeft env d i s = ⌊commandedCurrent (env.shared i).currentAmplitude s⌋ ↔
        commandedCurrent (env.shared i).currentAmplitude s < 32768)) ∧
    (WithinAmplitude (env.shared i).currentAmplitude (currentLeft env d i) ↔
      (env.shared i).currentAmplitude < 32768) := by
  have hpoint : ∀ s, -1 ≤ s →
      (currentLeft env d i s = ⌊commandedCurrent (env.shared i).currentAmplitude s⌋ ↔
        commandedCurrent (env.shared i).currentAmplitude s < 32768) := by
    intro s hlo
    rw [currentLeft_target env d hi htarget]
    exact toInt_narrow_eq_iff (commandedCurrent_nonneg hpos hlo)
  refine ⟨fun s hlo _ => hpoint s hlo, ?_, ?_⟩
  · intro h
    -- the sine that asks for the whole amplitude
    have hone := (hpoint 1 (by norm_num)).mp (h.integerPart 1 (by norm_num) le_rfl)
    rwa [commandedCurrent_one] at hone
  · intro h
    refine withinAmplitude_of_integerPart hpos fun s hlo hhi => (hpoint s hlo).mpr ?_
    calc commandedCurrent (env.shared i).currentAmplitude s
        ≤ commandedCurrent (env.shared i).currentAmplitude 1 := commandedCurrent_mono hpos hhi
      _ = (env.shared i).currentAmplitude := commandedCurrent_one _
      _ < 32768 := h

/-- One board as the target, with the amplitude `amplitude`. -/
def amplitudeEnv (amplitude : Rat) : PackEnv := PackEnv.steady (fun _ => 0) ⟨0, amplitude, ⟨0, 0⟩⟩

theorem default_amplitude_within :
    WithinAmplitude 10
      (currentLeft (amplitudeEnv 10) (Driver.gathered oneBoardBus oneBoardSlaves fun _ => 0) 0) :=
  (programmedCurrent_within_iff (amplitudeEnv 10)
    (Driver.gathered oneBoardBus oneBoardSlaves fun _ => 0) 0 (by decide) (by decide)
    (show (0 : Rat) < 10 by norm_num)).2.mpr (show (10 : Rat) < 32768 by norm_num)

/-- An amplitude of 40000 is accepted, and the sine 1 reverses the current. -/
theorem large_amplitude_reverses :
    inputLoop [40000] ⟨0, 10, ⟨0, 0⟩⟩ = ⟨0, 40000, ⟨0, 0⟩⟩ ∧
      currentLeft (amplitudeEnv 40000) (Driver.gathered oneBoardBus oneBoardSlaves fun _ => 0) 0 1
        = -25536 ∧
      ¬ WithinAmplitude 40000 (currentLeft (amplitudeEnv 40000)
        (Driver.gathered oneBoardBus oneBoardSlaves fun _ => 0) 0) := by
  have hint : toCInt 40000 = 40000 := by
    unfold toCInt
    rw [if_pos (show (0 : Rat) ≤ 40000 by norm_num),
      show (40000 : Rat).floor = 40000 from Rat.floor_intCast 40000]
    decide
  have hleft : currentLeft (amplitudeEnv 40000)
      (Driver.gathered oneBoardBus oneBoardSlaves fun _ => 0) 0 1 = -25536 := by
    rw [currentLeft_target (amplitudeEnv 40000) _ (by decide) (by decide)]
    show (narrow (commandedCurrent 40000 1)).toInt = -25536
    rw [commandedCurrent_one, narrow, hint]
    decide
  have haccepted : inputLoop [40000] ⟨0, 10, ⟨0, 0⟩⟩ = ⟨0, 40000, ⟨0, 0⟩⟩ := by
    rw [inputLoop, inputTurn, if_pos (by norm_num)]
    rfl
  refine ⟨haccepted, hleft, fun h => ?_⟩
  have hnonneg := h.nonneg 1 (by norm_num) le_rfl
  rw [hleft] at hnonneg
  exact absurd hnonneg (by decide)

end Pr2Ethercat

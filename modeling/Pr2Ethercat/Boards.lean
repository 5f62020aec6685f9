import Pr2Ethercat.Freshness
import Pr2Ethercat.Windows

/-!
# What the boards are commanded over a run

The driver and the slaves are one loop. A cycle hands its image over up to 20
times, a frame reaches some of the slaves and gets lost before others, a slave
that sees it copies its command out and its status in, and the image that comes
back is what the driver holds afterwards. `RingState` is the driver with the
command that each slave has copied last, `RingState.next` one cycle of both.

The exchange goes through the first half, which every second cycle packs. What
is sent in between is what came back, and a command comes back as it was sent
(`commands_unaltered`). So the loop samples the commands in the cycles 0, 2,
4, .. and holds them for two: `SampleHold` is that, and a board hears, whatever
is lost, the command of its rank in the cycle sampled last
(`boards_sampleHold`). The commands that the other cycles pack reach nobody.
-/

namespace Pr2Ethercat

open ByteArea Layout Retry

/-! ## Frames and boards -/

/-- The image that the attempt sends. -/
def Attempt.image (a : Attempt) : Area := fun k => a.bytes.getD k 0

/-- What slave `sh` copies out of the frame. -/
def frameCommand (d : Driver) (a : Attempt) (sh : Nat) : Option (List Byte) :=
  ((d.slaves sh).fmmuConfig.getD []).findSome? fun f => f.receive a.image 0 a.datalen

/-- One cycle, and which of its frames reach which slaves. -/
structure RingCycle where
  cycle : Cycle
  /-- The frame of attempt `k` reaches slave `sh`. -/
  reaches : Nat → Nat → Bool

/-- The driver, and the bytes in each slave's command memory. -/
structure RingState where
  driver : Driver
  commands : Nat → Option (List Byte)

def RingState.start (d : Driver) : RingState := ⟨d, fun _ => none⟩

/-- A frame goes round. -/
def framePassed (d : Driver) (reaches : Nat → Bool) (a : Attempt)
    (commands : Nat → Option (List Byte)) : Nat → Option (List Byte) := fun sh =>
  if reaches sh = true then (frameCommand d a sh).or (commands sh) else commands sh

/-- One cycle of the driver and the slaves. -/
def RingState.next (s : RingState) (c : RingCycle) : RingState where
  driver := (update c.cycle s.driver).driver
  commands := (update c.cycle s.driver).exchange.attempts.zipIdx.foldl
    (fun commands a => framePassed s.driver (c.reaches a.2) a.1 commands) s.commands

def RingState.run (s : RingState) (cs : List RingCycle) : RingState := cs.foldl RingState.next s

/-- One of the cycle's frames reaches the slave. -/
def RingCycle.heardBy (c : RingCycle) (sh : Nat) : Bool :=
  (List.range' 0 (attemptsMade c.cycle.net.replies maxPdRetries 0)).any fun k => c.reaches k sh

/-- The image that a cycle of the driver sends. -/
def sentImage (c : Cycle) (d : Driver) : Area :=
  fun a => (packCommand c.env d).mem (d.masterBuffer + a)

/-- The bytes received belong to an image that only the slaves `ring` have altered. -/
def CameBack (d : Driver) (ring : List Nat) (sent received : Area) : Prop :=
  ∃ back, AlteredOnlyBy d ring sent back ∧
    slice received 0 d.masterBufferSize = slice back 0 d.masterBufferSize

/-- In each of the cycles, what is received has come back from these slaves. -/
def RingRun (ring : List Nat) : RingState → List RingCycle → Prop
  | _, [] => True
  | s, c :: cs =>
    (∀ r, c.cycle.reply = some r → CameBack s.driver ring (sentImage c.cycle s.driver) r) ∧
      RingRun ring (s.next c) cs

theorem slice_image {a : Attempt} {off len : Nat} (h : off + len ≤ a.bytes.length) :
    slice a.image off len = (a.bytes.drop off).take len := by
  refine List.ext_getElem (by simp; omega) fun k hk _ => ?_
  have hlen : k < len := by simpa using hk
  simp only [slice, Attempt.image, List.getElem_map, List.getElem_range, List.getElem_take,
    List.getElem_drop]
  rw [List.getD_eq_getElem?_getD, List.getElem?_eq_getElem (by omega), Option.getD_some]

/-- Frames with the same bytes leave what one of them leaves. -/
theorem foldl_framePassed (d : Driver) (reaches : Nat → Nat → Bool) (a : Attempt) (sh : Nat) :
    ∀ (n k : Nat) (commands : Nat → Option (List Byte)),
      ((List.replicate n a).zipIdx k).foldl
          (fun commands b => framePassed d (reaches b.2) b.1 commands) commands sh
        = if (List.range' k n).any (fun j => reaches j sh) = true then
            (frameCommand d a sh).or (commands sh)
          else commands sh
  | 0, _, _ => rfl
  | n + 1, k, commands => by
    rw [List.replicate_succ, List.zipIdx_cons, List.foldl_cons, foldl_framePassed d reaches a sh n,
      List.range'_succ, List.any_cons]
    unfold framePassed
    cases hfirst : reaches k sh with
    | false => rw [Bool.false_or, if_neg Bool.false_ne_true]
    | true =>
      simp only [if_true, Bool.true_or]
      split
      · cases frameCommand d a sh <;> rfl
      · rfl

/-- What the cycle leaves in a slave's command memory. -/
theorem commands_next (s : RingState) (c : RingCycle) (sh : Nat) :
    (s.next c).commands sh =
      if c.heardBy sh = true then
        (frameCommand s.driver
          ⟨s.driver.masterBufferSize, s.driver.masterBuffer,
            slice (packCommand c.cycle.env s.driver).mem s.driver.masterBuffer
              s.driver.masterBufferSize⟩ sh).or (s.commands sh)
      else s.commands sh := by
  unfold RingState.next
  simp only [update_attempts]
  exact foldl_framePassed ..

/-- A board copies out the slot of its rank. -/
theorem frameCommand_rank (bufs : BufferSetup) {table : SlaveTable} {slaves : Nat → SlaveHandler}
    (mem : Area) {d : Driver}
    (hslaves : d.slaves = (bringUp bufs (configured table slaves mem)).slaves) {i : Nat}
    (hi : i < table.slaveHandles.length) (hw : isWG05 slaves table.slaveHandles[i] = true)
    (hfit : slotSize * rank (isWG05 slaves) table.slaveHandles i + commandSize
      ≤ d.masterBufferSize) (m : Area) (image : Nat) :
    frameCommand d ⟨d.masterBufferSize, image, slice m image d.masterBufferSize⟩
        table.slaveHandles[i]
      = some (slice m (image + slotSize * rank (isWG05 slaves) table.slaveHandles i)
          commandSize) := by
  have hlt : rank (isWG05 slaves) table.slaveHandles i < table.slaveHandles.length :=
    Nat.lt_of_le_of_lt (rank_le ..) hi
  obtain ⟨hk, hsame⟩ := List.getElem?_eq_some_iff.mp (getElem?_filter_rank hi hw)
  have hconfig := fmmuConfig_bringUp bufs mem hk
  rw [← hslaves, hsame] at hconfig
  generalize rank (isWG05 slaves) table.slaveHandles i = k at hlt hconfig hfit ⊢
  have hlen := table.length_le
  have hbus := table.numSlaves_le
  unfold frameCommand
  rw [hconfig, Option.getD_some, wg05Windows, List.findSome?_cons,
    receive_commandFmmu (by omega) hfit]
  refine congrArg some ?_
  rw [Nat.zero_add, slice_image (by rw [length_slice]; exact hfit)]
  exact (slice_add m image hfit).symm

/-- What comes back over a command is the same command. -/
theorem command_cameBack (bufs : BufferSetup) {table : SlaveTable} {slaves : Nat → SlaveHandler}
    (mem : Area) {d : Driver}
    (hslaves : d.slaves = (bringUp bufs (configured table slaves mem)).slaves) {ring : List Nat}
    (hring : ∀ sh ∈ ring, sh ∈ wg05Slaves table slaves ∨ (slaves sh).fmmuConfig = none)
    {m r : Area} (hback : CameBack d ring (fun a => m (d.masterBuffer + a)) r) {i : Nat}
    (hfit : slotSize * i + commandSize ≤ d.masterBufferSize) :
    slice (blit m d.masterBuffer r 0 d.masterBufferSize) (d.masterBuffer + slotSize * i) commandSize
      = slice m (d.masterBuffer + slotSize * i) commandSize := by
  obtain ⟨back, haltered, hsame⟩ := hback
  have hkept := commands_unaltered bufs mem hslaves hring haltered i
  refine slice_eq_iff.mpr fun j hj => ?_
  have hin : slotSize * i + j < d.masterBufferSize := by omega
  rw [Nat.add_assoc, blit_inside hin]
  calc r (0 + (slotSize * i + j))
      = back (0 + (slotSize * i + j)) := slice_eq_iff.mp hsame _ hin
    _ = back (slotSize * i + j) := by rw [Nat.zero_add]
    _ = m (d.masterBuffer + (slotSize * i + j)) := slice_eq_iff.mp hkept j hj

/-! ## Sampling and holding -/

/-- The packing sampled last, and the one that each slave has heard of last. -/
structure SampleHold where
  cycles : Nat
  sampled : Option PackEnv
  heard : Nat → Option PackEnv

def SampleHold.start : SampleHold := ⟨0, none, fun _ => none⟩

/-- Every second cycle is sampled, and every cycle is heard by those it reaches. -/
def SampleHold.next (g : SampleHold) (c : RingCycle) : SampleHold :=
  let sampled := if Even g.cycles then some c.cycle.env else g.sampled
  { cycles := g.cycles + 1
    sampled := sampled
    heard := fun sh => if c.heardBy sh = true then sampled else g.heard sh }

def SampleHold.run (g : SampleHold) (cs : List RingCycle) : SampleHold :=
  cs.foldl SampleHold.next g

/-! ## The ring samples and holds -/

/-- The slaves are configured, and have heard what `g` says. -/
structure Commanded (bufs : BufferSetup) (table : SlaveTable) (slaves : Nat → SlaveHandler)
    (mem : Area) (s : RingState) (l : Ledger) (g : SampleHold) : Prop where
  tracks : Tracks s.driver l
  cycles : l.cycles = g.cycles
  sameTable : s.driver.table = table
  sameSlaves : s.driver.slaves = (bringUp bufs (configured table slaves mem)).slaves
  sampled : ¬ Even g.cycles → ∃ env, g.sampled = some env
  /-- The first half holds the commands sampled last. -/
  first : ∀ env, g.sampled = some env → ∀ i < s.driver.numHandles,
    slice s.driver.mem (s.driver.masterBuffer + slotSize * i) commandSize
      = (slotCommand env i).bytes
  heard : ∀ (i : Nat) (hi : i < table.slaveHandles.length),
    isWG05 slaves table.slaveHandles[i] = true →
      s.commands table.slaveHandles[i] = (g.heard table.slaveHandles[i]).map fun env =>
        (slotCommand env (rank (isWG05 slaves) table.slaveHandles i)).bytes

section Ring

variable {bufs : BufferSetup} {table : SlaveTable} {slaves : Nat → SlaveHandler} {mem : Area}
  {s : RingState} {l : Ledger} {g : SampleHold}

/-- The commands that the next cycle sends. -/
theorem Commanded.sent (h : Commanded bufs table slaves mem s l g) (c : RingCycle) :
    ∃ env, (g.next c).sampled = some env ∧ ∀ i < s.driver.numHandles,
      slice (packCommand c.cycle.env s.driver).mem (s.driver.masterBuffer + slotSize * i)
          commandSize
        = (slotCommand env i).bytes := by
  have hthis := h.tracks.this
  by_cases heven : Even g.cycles
  · refine ⟨c.cycle.env, if_pos heven, fun i hi => ?_⟩
    rw [if_pos (h.cycles ▸ heven)] at hthis
    rw [← hthis]
    exact slice_packCommand c.cycle.env s.driver hi
  · obtain ⟨env, henv⟩ := h.sampled heven
    refine ⟨env, (if_neg heven).trans henv, fun i hi => ?_⟩
    rw [if_neg (h.cycles ▸ heven)] at hthis
    rw [← h.first env henv i hi]
    -- the second half is packed, behind all of the first
    refine slice_eq_iff.mpr fun j hj => packCommand_outside _ _ fun k _ => Or.inl ?_
    have hslot : slotSize * (i + 1) ≤ imageSize s.driver.table := slot_le_imageSize hi
    simp only [slotSize_eq, commandSize] at hslot hj ⊢
    omega

/-- Slot `i` lies in the image that is exchanged. -/
theorem Commanded.slot_fits (h : Commanded bufs table slaves mem s l g) {i : Nat}
    (hi : i < s.driver.numHandles) : slotSize * i + commandSize ≤ s.driver.masterBufferSize := by
  have hslot : slotSize * (i + 1) ≤ imageSize s.driver.table := slot_le_imageSize hi
  rw [h.tracks.size]
  simp only [slotSize_eq, commandSize] at hslot ⊢
  omega

/-- They are still there when the cycle is over. -/
theorem Commanded.first_next (h : Commanded bufs table slaves mem s l g) {ring : List Nat}
    (hring : ∀ sh ∈ ring, sh ∈ wg05Slaves table slaves ∨ (slaves sh).fmmuConfig = none)
    {c : RingCycle}
    (hback : ∀ r, c.cycle.reply = some r →
      CameBack s.driver ring (sentImage c.cycle s.driver) r)
    {i : Nat} (hi : i < s.driver.numHandles) :
    slice (update c.cycle s.driver).driver.mem (s.driver.masterBuffer + slotSize * i) commandSize
      = slice (packCommand c.cycle.env s.driver).mem (s.driver.masterBuffer + slotSize * i)
          commandSize := by
  rw [update_mem]
  cases hreply : c.cycle.reply with
  | none => rfl
  | some r =>
    exact command_cameBack bufs mem h.sameSlaves hring (hback r hreply) (h.slot_fits hi)

/-- **Step lemma.** One cycle of the ring is one step of sampling and holding. -/
theorem Commanded.step (h : Commanded bufs table slaves mem s l g) {ring : List Nat}
    (hring : ∀ sh ∈ ring, sh ∈ wg05Slaves table slaves ∨ (slaves sh).fmmuConfig = none)
    {c : RingCycle}
    (hback : ∀ r, c.cycle.reply = some r →
      CameBack s.driver ring (sentImage c.cycle s.driver) r) :
    Commanded bufs table slaves mem (s.next c) (l.next c.cycle.reply) (g.next c) := by
  obtain ⟨env, henv, hsent⟩ := h.sent c
  constructor
  case tracks => exact h.tracks.step c.cycle
  case cycles => exact congrArg (· + 1) h.cycles
  case sameTable => exact h.sameTable
  case sameSlaves => exact h.sameSlaves
  case sampled => exact fun _ => ⟨env, henv⟩
  case first =>
    intro env' henv' i hi
    obtain rfl := Option.some.inj (henv.symm.trans henv')
    exact (h.first_next hring hback hi).trans (hsent i hi)
  case heard =>
    intro i hi hw
    have hlt : rank (isWG05 slaves) table.slaveHandles i < s.driver.numHandles := by
      rw [Driver.numHandles, h.sameTable]
      exact Nat.lt_of_le_of_lt (rank_le ..) hi
    have hheard : (g.next c).heard table.slaveHandles[i] =
        if c.heardBy table.slaveHandles[i] = true then (g.next c).sampled
        else g.heard table.slaveHandles[i] := rfl
    rw [commands_next, hheard, henv,
      frameCommand_rank bufs mem h.sameSlaves hi hw (h.slot_fits hlt), hsent _ hlt]
    by_cases hreached : c.heardBy table.slaveHandles[i] = true
    · rw [if_pos hreached, if_pos hreached]
      rfl
    · rw [if_neg hreached, if_neg hreached]
      exact h.heard i hi hw

/-- **Run lemma.** -/
theorem Commanded.run {ring : List Nat}
    (hring : ∀ sh ∈ ring, sh ∈ wg05Slaves table slaves ∨ (slaves sh).fmmuConfig = none)
    (cs : List RingCycle) :
    ∀ {s : RingState} {l : Ledger} {g : SampleHold}, Commanded bufs table slaves mem s l g →
      RingRun ring s cs → ∃ l', Commanded bufs table slaves mem (s.run cs) l' (g.run cs) := by
  induction cs with
  | nil =>
    intro s l g h _
    exact ⟨l, h⟩
  | cons c cs ih =>
    intro s l g h ⟨hback, hrest⟩
    exact ih (h.step hring hback) hrest

/-- After `setMasterBuffer` nobody has heard anything. -/
theorem commanded_start (hne : table.slaveHandles ≠ []) :
    Commanded bufs table slaves mem
      (RingState.start (setMasterBuffer bufs (configured table slaves mem)).2)
      (Ledger.start (initialImage bufs)) SampleHold.start := by
  have hset : (setMasterBuffer bufs (configured table slaves mem)).1 = 0 := by
    refine (setMasterBuffer_fst _ _).mpr ?_
    rw [configured_numHandles, Ne, List.length_eq_zero_iff]
    exact hne
  constructor
  case tracks => exact tracks_setMasterBuffer bufs hset
  case cycles => rfl
  case sameTable =>
    rw [RingState.start, setMasterBuffer_eq bufs ((setMasterBuffer_fst _ _).mp hset)]
    exact configured_table mem
  case sameSlaves => exact slaves_setMasterBuffer bufs mem hne
  case sampled => exact fun hodd => absurd Even.zero hodd
  case first => exact fun _ henv => absurd henv (by simp [SampleHold.start])
  case heard => exact fun _ _ _ => rfl

end Ring

/-- **Half-rate commands.** In every run after `setMasterBuffer` in which what is
received comes back from the slaves, whatever is lost on the way, each board has
the command of its rank in the cycle sampled last when it heard a frame last,
and every attempt of the next cycle sends the commands sampled then or, after an
odd number of cycles, the ones before. -/
theorem boards_sampleHold (bufs : BufferSetup) (table : SlaveTable) (slaves : Nat → SlaveHandler)
    (mem : Area) (hne : table.slaveHandles ≠ []) (ring : List Nat)
    (hring : ∀ sh ∈ ring, sh ∈ wg05Slaves table slaves ∨ (slaves sh).fmmuConfig = none)
    (cs : List RingCycle)
    (hrun : RingRun ring
      (RingState.start (setMasterBuffer bufs (configured table slaves mem)).2) cs) :
    let s := (RingState.start (setMasterBuffer bufs (configured table slaves mem)).2).run cs
    let g := SampleHold.start.run cs
    (∀ (i : Nat) (hi : i < table.slaveHandles.length),
      isWG05 slaves table.slaveHandles[i] = true →
        s.commands table.slaveHandles[i] = (g.heard table.slaveHandles[i]).map fun env =>
          (slotCommand env (rank (isWG05 slaves) table.slaveHandles i)).bytes) ∧
    ∀ c : RingCycle, ∃ env, (g.next c).sampled = some env ∧
      ∀ a ∈ (update c.cycle s.driver).exchange.attempts, ∀ i < table.slaveHandles.length,
        (a.bytes.drop (slotSize * i)).take commandSize = (slotCommand env i).bytes := by
  obtain ⟨l, h⟩ := Commanded.run hring cs (@commanded_start bufs table slaves mem hne) hrun
  refine ⟨h.heard, fun c => ?_⟩
  obtain ⟨env, henv, hsent⟩ := h.sent c
  refine ⟨env, henv, fun a ha i hi => ?_⟩
  have hlt : i < _ := lt_of_lt_of_eq hi
    (congrArg (fun t => t.slaveHandles.length) h.sameTable).symm
  rw [update_attempts] at ha
  obtain ⟨_, rfl⟩ := List.mem_replicate.mp ha
  rw [← hsent i hlt]
  exact (slice_add _ _ (h.slot_fits hlt)).symm

/-- The coupler and the two boards, after `setMasterBuffer`. -/
def couplerRing : RingState :=
  RingState.start (setMasterBuffer refusingBoard.buffers
    (configured couplerBus couplerSlaves fun _ => 0)).2

/-- A first cycle for target 0 that comes back, and a second one for target 1
that does not, whose frames reach everybody. -/
def couplerCycles : List RingCycle :=
  [⟨cycleWith 0 (some (sentImage (cycleWith 0 none) couplerRing.driver)), fun _ _ => true⟩,
    ⟨cycleWith 1 none, fun _ _ => true⟩]

/-- The board of rank 0 stays enabled, and the one of rank 1 off. -/
theorem couplerRing_second_unheard :
    (couplerRing.run couplerCycles).commands 2
        = some (slotCommand (cycleWith 0 none).env 0).bytes ∧
      (couplerRing.run couplerCycles).commands 3
        = some (slotCommand (cycleWith 0 none).env 1).bytes := by
  have hrun : RingRun [2, 3] couplerRing couplerCycles := by
    have hlost : (cycleWith 1 none).reply = none := Cycle.reply_eq_none_iff.mpr fun _ _ => rfl
    refine ⟨fun r hr => ?_, fun r hr => absurd (hlost.symm.trans hr) nofun, trivial⟩
    obtain rfl := Option.some.inj hr
    exact ⟨_, fun _ hne => absurd rfl hne, rfl⟩
  have hheard := (boards_sampleHold refusingBoard.buffers couplerBus couplerSlaves (fun _ => 0)
    (by decide) [2, 3] (by decide) couplerCycles hrun).1
  exact ⟨hheard 1 (by decide) (by decide), hheard 2 (by decide) (by decide)⟩

end Pr2Ethercat

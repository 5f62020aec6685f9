import Pr2Ethercat.Routing
import Pr2Ethercat.Update

/-!
# What runs of `update` send and show

Three questions about the state after any number of cycles, whatever they
packed and received. Does the next cycle send the image it has packed
(`TransmitsFresh`)? Does `prev_buffer_` hold what a succeeding cycle received
(`ShowsReply`)? Does a failing cycle leave the statuses in `prev_buffer_` as
they were (`StatusKept`)?

All three hang on the same fact. The halves take turns, the exchange does not:
it goes through the first half. After an even number of cycles the first half
is `this_buffer_` and the first two answers are yes. After an odd number it is
`prev_buffer_`: what is sent was not packed in this cycle, and what is shown is
the initial image with the commands of this cycle, which the bytes received can
only equal by chance. A failing cycle turns the other half up, so the third
answer is yes only as long as both halves show the same statuses.
-/

namespace Pr2Ethercat

open ByteArea Retry

/-! ## Transmitting -/

/-- Every attempt of the next cycle hands over the region it has just packed. -/
def TransmitsFresh (d : Driver) (c : Cycle) : Prop :=
  ∀ a ∈ (update c d).exchange.attempts,
    a.datalen = d.masterBufferSize ∧ a.data = d.thisBuffer ∧
      a.bytes = slice (packCommand c.env d).mem d.thisBuffer d.masterBufferSize

/-- The attempts of a cycle all hand over the first half. -/
theorem update_attempts (c : Cycle) (d : Driver) :
    (update c d).exchange.attempts =
      List.replicate (attemptsMade c.net.replies maxPdRetries 0)
        ⟨d.masterBufferSize, d.masterBuffer,
          slice (packCommand c.env d).mem d.masterBuffer d.masterBufferSize⟩ :=
  txandrxPD_attempts (packCommand c.env d) d.masterBufferSize d.thisBuffer maxPdRetries c.net

section Run

variable {d : Driver} {l : Ledger}

theorem Tracks.imageSize_pos (h : Tracks d l) : 0 < imageSize d.table := by
  have hslots := slots_le_imageSize d.table
  have hne : d.table.slaveHandles.length ≠ 0 := h.gathered
  rw [slotSize_eq] at hslots
  omega

theorem Tracks.transmitsFresh_iff (h : Tracks d l) (c : Cycle) :
    TransmitsFresh d c ↔ Even l.cycles := by
  have hthis := h.this
  constructor
  · intro hfresh
    by_contra hodd
    rw [if_neg hodd] at hthis
    -- the first attempt hands over the half that was not packed
    have hmade : attemptsMade c.net.replies maxPdRetries 0 ≠ 0 :=
      Nat.pos_iff_ne_zero.mp (attemptsMade_pos _ (by decide) 0)
    have hfirst := hfresh _ (by rw [update_attempts]; exact List.mem_replicate.mpr ⟨hmade, rfl⟩)
    have hdata : d.masterBuffer = d.thisBuffer := hfirst.2.1
    have hpos := h.imageSize_pos
    omega
  · intro heven a ha
    rw [if_pos heven] at hthis
    rw [update_attempts] at ha
    obtain ⟨_, rfl⟩ := List.mem_replicate.mp ha
    rw [hthis]
    exact ⟨rfl, rfl, rfl⟩

/-- What is sent instead: after a failing cycle that packed the first half, the
next cycle sends that cycle's commands once more, whatever it packs itself. -/
theorem Tracks.resends (h : Tracks d l) (heven : Even l.cycles) {c : Cycle} (hfail : c.reply = none)
    (next : Cycle) {a : Attempt} (ha : a ∈ (update next (update c d).driver).exchange.attempts)
    {i : Nat} (hi : i < d.numHandles) :
    (a.bytes.drop (slotSize * i)).take commandSize = (slotCommand c.env i).bytes := by
  have hthis := h.this
  rw [if_pos heven] at hthis
  have hprev : (update c d).driver.thisBuffer = d.masterBuffer + imageSize d.table := by
    show d.prevBuffer = _
    rw [h.prev, if_pos heven]
  have hslot : slotSize * (i + 1) ≤ imageSize d.table := slot_le_imageSize hi
  have hfit : slotSize * i + commandSize ≤ d.masterBufferSize := by
    rw [h.size]
    simp only [slotSize_eq, commandSize] at hslot ⊢
    omega
  rw [update_attempts] at ha
  obtain ⟨_, rfl⟩ := List.mem_replicate.mp ha
  show List.take commandSize (List.drop (slotSize * i)
    (slice _ d.masterBuffer d.masterBufferSize)) = _
  rw [← slice_add _ _ hfit, ← slice_packCommand c.env d hi, hthis]
  refine slice_eq_iff.mpr fun j hj => ?_
  -- the second half is packed now, and nothing was received over the first
  have hkeep : (packCommand next.env (update c d).driver).mem (d.masterBuffer + slotSize * i + j)
      = (update c d).driver.mem (d.masterBuffer + slotSize * i + j) := by
    refine packCommand_outside _ _ fun k _ => Or.inl ?_
    rw [hprev]
    simp only [slotSize_eq, commandSize] at hslot hj ⊢
    omega
  rw [hkeep, update_mem, hfail]

/-! ## Showing what was received -/

/-- After the next cycle, if it receives anything, `prev_buffer_` holds the
bytes received. -/
def ShowsReply (d : Driver) (c : Cycle) : Prop :=
  ∀ r, c.reply = some r →
    slice (update c d).driver.mem (update c d).driver.prevBuffer
        (update c d).driver.masterBufferSize
      = slice r 0 (update c d).driver.masterBufferSize

/-- With the first half packed, the reply lands where it will be looked at. -/
theorem Tracks.showsReply (h : Tracks d l) (heven : Even l.cycles) (c : Cycle) :
    ShowsReply d c := by
  intro r hr
  have hthis := h.this
  rw [if_pos heven] at hthis
  rw [update_mem, hr]
  show slice _ d.thisBuffer d.masterBufferSize = slice r 0 d.masterBufferSize
  rw [hthis]
  exact slice_eq_iff.mpr fun j hj => blit_inside hj

/-- With the second half packed, `prev_buffer_` holds the initial image with the
commands just packed instead. -/
theorem Tracks.slice_prev_update (h : Tracks d l) (hodd : ¬ Even l.cycles) (c : Cycle) :
    slice (update c d).driver.mem (update c d).driver.prevBuffer
        (update c d).driver.masterBufferSize
      = slice (withCommands c.env d.numHandles l.initial) 0 d.masterBufferSize := by
  have hthis := h.this
  rw [if_neg hodd] at hthis
  show slice (update c d).driver.mem d.thisBuffer d.masterBufferSize = _
  refine slice_eq_iff.mpr fun k hk => ?_
  have hsize : k < imageSize d.table := by
    rw [← h.size]
    exact hk
  -- a reply stays in the first half
  have hpacked : (update c d).driver.mem (d.thisBuffer + k)
      = (packCommand c.env d).mem (d.thisBuffer + k) := by
    rw [update_mem]
    cases c.reply with
    | none => rfl
    | some r =>
      refine blit_outside (Or.inr ?_)
      rw [hthis, h.size]
      omega
  rw [hpacked, packCommand_image, Nat.zero_add]
  refine withCommands_congr fun hout => ?_
  rw [hthis]
  exact h.second k hsize hout

theorem Tracks.showsReply_iff (h : Tracks d l) {c : Cycle} {r : Area} (hr : c.reply = some r) :
    ShowsReply d c ↔ Even l.cycles ∨
      slice r 0 d.masterBufferSize
        = slice (withCommands c.env d.numHandles l.initial) 0 d.masterBufferSize := by
  constructor
  · intro hshows
    by_cases heven : Even l.cycles
    · exact Or.inl heven
    · exact Or.inr ((hshows r hr).symm.trans (h.slice_prev_update heven c))
  · intro hcond
    by_cases heven : Even l.cycles
    · exact h.showsReply heven c
    · intro r' hr'
      have hsame : r' = r := Option.some.inj (hr'.symm.trans hr)
      rw [hsame, h.slice_prev_update heven c]
      exact (hcond.resolve_left heven).symm

/-! ## Failing -/

/-- The next cycle leaves the statuses in `prev_buffer_` as they are. -/
def StatusKept (d : Driver) (c : Cycle) : Prop :=
  statusImage (update c d).driver.mem (update c d).driver.prevBuffer d.numHandles
    = statusImage d.mem d.prevBuffer d.numHandles

/-- A failing cycle turns the other half up. -/
theorem Tracks.statusKept_iff (h : Tracks d l) {c : Cycle} (hfail : c.reply = none) :
    StatusKept d c ↔
      statusImage l.latest 0 d.numHandles = statusImage l.initial 0 d.numHandles := by
  have hafter : statusImage (update c d).driver.mem (update c d).driver.prevBuffer d.numHandles
      = statusImage (l.next c.reply).visible 0 d.numHandles := (h.step c).statusImage_prev
  unfold StatusKept
  rw [hafter, h.statusImage_prev, hfail]
  by_cases heven : Even l.cycles
  · have hodd : ¬ Even (l.next none).cycles := fun hnext => (l.even_next none).mp hnext heven
    rw [Ledger.visible_of_even heven, Ledger.visible_of_odd hodd]
    exact Iff.rfl
  · rw [Ledger.visible_of_odd heven, Ledger.visible_of_even ((l.even_next none).mpr heven)]
    exact eq_comm

end Run

/-! ## Runs from `setMasterBuffer` on -/

/-- The image received last in a run: by one of its cycles, or else by
`setMasterBuffer`. -/
def latestReceived (env : BufferSetup) (cs : List Cycle) : Area :=
  cs.foldl (fun image c => c.reply.getD image) (initialImage env)

theorem Ledger.latest_run (cs : List Cycle) :
    ∀ l : Ledger, (l.run cs).latest = cs.foldl (fun image c => c.reply.getD image) l.latest := by
  induction cs with
  | nil =>
    intro l
    rfl
  | cons c cs ih =>
    intro l
    exact ih (l.next c.reply)

/-- A cycle with the given target, in which every attempt ends with `reply`. -/
def cycleWith (target : BitVec 32) (reply : Option Area) : Cycle where
  env := PackEnv.steady (fun _ => 0) ⟨target, 10, ⟨0, 0⟩⟩
  net := { replies := fun _ => reply, oob := .new, oobMutexFree := true, handle := -1 }

section Results

variable (env : BufferSetup) (d : Driver)

theorem tracks_run (hset : (setMasterBuffer env d).1 = 0) (cs : List Cycle) :
    Tracks (runCycles (setMasterBuffer env d).2 cs) ((Ledger.start (initialImage env)).run cs) :=
  Tracks.run cs (tracks_setMasterBuffer env hset)

/-- No cycle gathers slaves. -/
theorem table_run (hset : (setMasterBuffer env d).1 = 0) (cs : List Cycle) :
    (runCycles (setMasterBuffer env d).2 cs).table = d.table := by
  have hcycles : ∀ (cs : List Cycle) (d : Driver), (runCycles d cs).table = d.table := by
    intro cs
    induction cs with
    | nil =>
      intro d
      rfl
    | cons c cs ih =>
      intro d
      exact ih (update c d).driver
  rw [hcycles, setMasterBuffer_eq env ((setMasterBuffer_fst env d).mp hset)]

theorem numHandles_run (hset : (setMasterBuffer env d).1 = 0) (cs : List Cycle) :
    (runCycles (setMasterBuffer env d).2 cs).numHandles = d.numHandles :=
  congrArg (fun table => table.slaveHandles.length) (table_run env d hset cs)

theorem cycles_start_run (cs : List Cycle) :
    ((Ledger.start (initialImage env)).run cs).cycles = cs.length := by
  rw [Ledger.cycles_run]
  exact Nat.zero_add _

/-- **Transmit freshness.** After any run from a successful `setMasterBuffer`,
the next cycle hands over the image it has just packed if and only if the run
has an even number of cycles. -/
theorem update_transmits_fresh_iff (hset : (setMasterBuffer env d).1 = 0) (cs : List Cycle)
    (c : Cycle) :
    TransmitsFresh (runCycles (setMasterBuffer env d).2 cs) c ↔ Even cs.length := by
  rw [(tracks_run env d hset cs).transmitsFresh_iff, cycles_start_run]

/-- **Status freshness.** After any run from a successful `setMasterBuffer`, what
the next cycle receives is what `prev_buffer_` holds after it if and only if the
run has an even number of cycles, or the bytes received happen to be those of
the initial image with the commands of this cycle filled in. -/
theorem update_shows_reply_iff (hset : (setMasterBuffer env d).1 = 0) (cs : List Cycle)
    (c : Cycle) (r : Area) (hr : c.reply = some r) :
    ShowsReply (runCycles (setMasterBuffer env d).2 cs) c ↔
      Even cs.length ∨
        slice r 0 (imageSize d.table)
          = slice (withCommands c.env d.numHandles (initialImage env)) 0 (imageSize d.table) := by
  have htracks := tracks_run env d hset cs
  rw [htracks.showsReply_iff hr, cycles_start_run, Ledger.initial_run, htracks.size,
    numHandles_run env d hset cs, table_run env d hset cs]
  exact Iff.rfl

/-- **A failing cycle.** After any run from a successful `setMasterBuffer`, a
cycle whose attempts all fail leaves the statuses in `prev_buffer_` as they are
if and only if the statuses received last are those of the initial image. -/
theorem update_keeps_status_iff (hset : (setMasterBuffer env d).1 = 0) (cs : List Cycle)
    (c : Cycle) (hfail : ∀ i < maxPdRetries, c.net.replies i = none) :
    StatusKept (runCycles (setMasterBuffer env d).2 cs) c ↔
      statusImage (latestReceived env cs) 0 d.numHandles
        = statusImage (initialImage env) 0 d.numHandles := by
  rw [(tracks_run env d hset cs).statusKept_iff (Cycle.reply_eq_none_iff.mpr hfail),
    Ledger.initial_run, Ledger.latest_run, numHandles_run env d hset cs]
  exact Iff.rfl

end Results

/-! ## One board -/

/-- The ring with one motor board, configured. -/
def oneBoard : Driver := configured oneBoardBus oneBoardSlaves fun _ => 0

/-- The board comes up, and zeros are received. -/
def oneBoardSetup : BufferSetup where
  reached := fun _ _ => true
  buffer := 0x1000
  replies := fun _ => some fun _ => 0
  buffer_ne := Nat.succ_ne_zero 0xfff

theorem oneBoard_set : (setMasterBuffer oneBoardSetup oneBoard).1 = 0 := by
  refine (setMasterBuffer_fst _ _).mpr ?_
  unfold oneBoard
  rw [configured_numHandles]
  decide

theorem oneBoard_first_update_fresh :
    TransmitsFresh (runCycles (setMasterBuffer oneBoardSetup oneBoard).2 []) (cycleWith 0 none) :=
  (update_transmits_fresh_iff oneBoardSetup oneBoard oneBoard_set [] _).mpr (by decide)

/-- The second cycle, for a target that does not exist, sends the enabled
command of the first once more. -/
theorem oneBoard_second_update_stale :
    ¬ TransmitsFresh (runCycles (setMasterBuffer oneBoardSetup oneBoard).2 [cycleWith 0 none])
        (cycleWith 5 none) ∧
    ∀ a ∈ (update (cycleWith 5 none) (runCycles (setMasterBuffer oneBoardSetup oneBoard).2
        [cycleWith 0 none])).exchange.attempts,
      (a.bytes.drop (slotSize * 0)).take commandSize
        = (slotCommand (cycleWith 0 none).env 0).bytes := by
  have hstart := tracks_setMasterBuffer oneBoardSetup oneBoard_set
  constructor
  · intro hfresh
    have heven := ((tracks_run _ _ oneBoard_set [cycleWith 0 none]).transmitsFresh_iff _).mp hfresh
    rw [cycles_start_run] at heven
    exact absurd heven (by decide)
  · intro a ha
    exact hstart.resends Even.zero rfl (cycleWith 5 none) ha (Nat.pos_of_ne_zero hstart.gathered)

theorem oneBoard_first_reply_shown :
    ShowsReply (runCycles (setMasterBuffer oneBoardSetup oneBoard).2 [])
      (cycleWith 0 (some fun _ => 1)) :=
  (update_shows_reply_iff oneBoardSetup oneBoard oneBoard_set [] (cycleWith 0 (some fun _ => 1))
    (fun _ => 1) rfl).mpr (Or.inl (by decide))

/-- What the second cycle receives is not what is shown after it: the statuses
are still zeros. -/
theorem oneBoard_second_reply_hidden :
    ¬ ShowsReply (runCycles (setMasterBuffer oneBoardSetup oneBoard).2
      [cycleWith 0 (some fun _ => 1)]) (cycleWith 0 (some fun _ => 1)) := by
  intro hshows
  have htracks := tracks_run _ _ oneBoard_set [cycleWith 0 (some fun _ => 1)]
  rcases (htracks.showsReply_iff (r := fun _ => 1) rfl).mp hshows with heven | hsame
  · rw [cycles_start_run] at heven
    exact absurd heven (by decide)
  · have hsize : commandSize < imageSize oneBoard.table := by decide
    have hstatus : ∀ n, OutsideCommands n commandSize :=
      fun n => outsideCommands_status n 0 (j := 0) (by decide)
    rw [htracks.size, table_run _ _ oneBoard_set] at hsame
    have hbyte := slice_eq_iff.mp hsame commandSize hsize
    rw [Nat.zero_add, withCommands_outside (hstatus _), Ledger.initial_run] at hbyte
    have hone : (1 : Byte) = 0 := hbyte
    exact absurd hone (by decide)

theorem oneBoard_first_failure_kept :
    StatusKept (runCycles (setMasterBuffer oneBoardSetup oneBoard).2 []) (cycleWith 0 none) :=
  (update_keeps_status_iff oneBoardSetup oneBoard oneBoard_set [] (cycleWith 0 none)
    fun _ _ => rfl).mpr rfl

/-- After one cycle that received other statuses, a failure brings the old ones back. -/
theorem oneBoard_failure_shows_old_status :
    ¬ StatusKept (runCycles (setMasterBuffer oneBoardSetup oneBoard).2
      [cycleWith 0 (some fun _ => 1)]) (cycleWith 0 none) := by
  intro hkept
  have htracks := tracks_run _ _ oneBoard_set [cycleWith 0 (some fun _ => 1)]
  have hsame := (htracks.statusKept_iff (c := cycleWith 0 none) rfl).mp hkept
  have hbyte := statusImage_eq_iff.mp hsame 0 (Nat.pos_of_ne_zero htracks.gathered) 0 (by decide)
  rw [Ledger.initial_run, Ledger.latest_run] at hbyte
  have hone : (1 : Byte) = 0 := hbyte
  exact absurd hone (by decide)

end Pr2Ethercat

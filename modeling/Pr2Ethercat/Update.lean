import Mathlib.Algebra.Group.Nat.Even
import Pr2Ethercat.MasterBuffer
import Pr2Ethercat.PackCommand

/-!
# `update`: one cycle, and any number of them

A cycle packs the commands into `this_buffer_`, exchanges process data, and
swaps the two buffer pointers, whether or not the exchange succeeded. The two
halves therefore take turns at being `this_buffer_`, while the exchange always
goes through the first half, because `txandrx_PD` hands over `Master_Buffer_`.

What this does outside the commands is simple enough to be written down on its
own: the first half holds the image received last, the second half keeps the one
`setMasterBuffer` left for good, and `prev_buffer_` shows them in turns. That is
`Ledger`, an abstract machine with a cycle counter and two images. `Tracks`
connects it to the driver, `Tracks.step` is one cycle and `Tracks.run` any
number of them; the results about runs (`Freshness`, `MonitorRuns`) only use
those.
-/

namespace Pr2Ethercat

open ByteArea Retry

/-! ## The function -/

/-- `max_pd_retries_`. -/
def maxPdRetries : Nat := 20

/-- What one call of `update` meets: the globals of `packCommand`, and the network. -/
structure Cycle where
  env : PackEnv
  net : Network

structure UpdateResult where
  driver : Driver
  exchange : PdOutcome

/-- The body of `update` for `n` handles. -/
def updateSlots (c : Cycle) (n : Nat) (d : Driver) : UpdateResult :=
  let d := packSlots c.env n d
  let exchange := txandrxPD d d.masterBufferSize d.thisBuffer maxPdRetries c.net
  let d := { d with mem := exchange.mem }
  -- the pointers are swapped whatever the exchange returned
  { driver := { d with thisBuffer := d.prevBuffer, prevBuffer := d.thisBuffer }
    exchange := exchange }

/-- `update()`, which returns 0. -/
def update (c : Cycle) (d : Driver) : UpdateResult := updateSlots c d.numHandles d

/-- The calls of `update` that the cycles `cs` stand for, one after the other. -/
def runCycles (d : Driver) (cs : List Cycle) : Driver :=
  cs.foldl (fun d c => (update c d).driver) d

/-- What the cycle receives: the reply to its first successful attempt. -/
def Cycle.reply (c : Cycle) : Option Area := firstSome c.net.replies maxPdRetries 0

theorem Cycle.reply_eq_none_iff {c : Cycle} :
    c.reply = none ↔ ∀ i < maxPdRetries, c.net.replies i = none :=
  firstSome_zero_eq_none_iff

/-- The memory after a cycle: the packed buffers, and over the first half what
was received. -/
theorem update_mem (c : Cycle) (d : Driver) :
    (update c d).driver.mem =
      match c.reply with
      | some r => blit (packCommand c.env d).mem d.masterBuffer r 0 d.masterBufferSize
      | none => (packCommand c.env d).mem := by
  show (txandrxPD (packCommand c.env d) d.masterBufferSize d.thisBuffer maxPdRetries c.net).mem = _
  cases h : c.reply with
  | some r => exact txandrxPD_mem_of_some h
  | none => exact txandrxPD_mem_of_none h

/-- Besides memory, a cycle only swaps the pointers. -/
theorem update_driver (c : Cycle) (d : Driver) :
    (update c d).driver =
      { d with
        mem := (update c d).driver.mem
        thisBuffer := d.prevBuffer
        prevBuffer := d.thisBuffer } := rfl

/-! ## The ledger -/

/-- A double buffer whose second half is never received into: the number of
cycles, the image left by the initialisation, and the image received last. -/
structure Ledger where
  cycles : Nat
  initial : Area
  latest : Area

def Ledger.start (image : Area) : Ledger := ⟨0, image, image⟩

/-- One cycle that receives `reply`. -/
def Ledger.next (l : Ledger) (reply : Option Area) : Ledger where
  cycles := l.cycles + 1
  initial := l.initial
  latest := reply.getD l.latest

theorem Ledger.even_next (l : Ledger) (reply : Option Area) :
    Even (l.next reply).cycles ↔ ¬ Even l.cycles := Nat.even_add_one

/-- The image whose statuses `prev_buffer_` shows. -/
def Ledger.visible (l : Ledger) : Area := if Even l.cycles then l.initial else l.latest

theorem Ledger.visible_of_even {l : Ledger} (h : Even l.cycles) : l.visible = l.initial := if_pos h

theorem Ledger.visible_of_odd {l : Ledger} (h : ¬ Even l.cycles) : l.visible = l.latest := if_neg h

def Ledger.run (l : Ledger) (cs : List Cycle) : Ledger :=
  cs.foldl (fun l c => l.next c.reply) l

theorem Ledger.cycles_run (cs : List Cycle) :
    ∀ l : Ledger, (l.run cs).cycles = l.cycles + cs.length := by
  induction cs with
  | nil =>
    intro l
    rfl
  | cons c cs ih =>
    intro l
    have h := ih (l.next c.reply)
    rw [List.length_cons]
    show ((l.next c.reply).run cs).cycles = _
    rw [h]
    show l.cycles + 1 + cs.length = _
    omega

theorem Ledger.initial_run (cs : List Cycle) : ∀ l : Ledger, (l.run cs).initial = l.initial := by
  induction cs with
  | nil =>
    intro l
    rfl
  | cons c cs ih =>
    intro l
    exact ih (l.next c.reply)

/-! ## The driver follows the ledger -/

/-- From address `image` on, memory holds the bytes of `content`, whatever the
commands are. -/
def Holds (d : Driver) (image : Nat) (content : Area) : Prop :=
  ∀ k < imageSize d.table, OutsideCommands d.numHandles k → d.mem (image + k) = content k

/-- Where the buffers are, and what they hold. -/
structure Tracks (d : Driver) (l : Ledger) : Prop where
  gathered : d.numHandles ≠ 0
  nonNull : d.masterBuffer ≠ NULL
  size : d.masterBufferSize = imageSize d.table
  this : d.thisBuffer =
    if Even l.cycles then d.masterBuffer else d.masterBuffer + imageSize d.table
  prev : d.prevBuffer =
    if Even l.cycles then d.masterBuffer + imageSize d.table else d.masterBuffer
  first : Holds d d.masterBuffer l.latest
  second : Holds d (d.masterBuffer + imageSize d.table) l.initial

variable {d : Driver} {l : Ledger}

/-- The statuses are among the bytes held. -/
theorem Holds.statusImage {image : Nat} {content : Area} (h : Holds d image content) :
    statusImage d.mem image d.numHandles = statusImage content 0 d.numHandles := by
  refine statusImage_eq_iff.mpr fun i hi j hj => ?_
  have hslot : slotSize * (i + 1) ≤ imageSize d.table := slot_le_imageSize hi
  have hlast : slotSize * i + commandSize + j < imageSize d.table := by
    simp only [slotSize_eq, commandSize, statusSize] at hslot hj ⊢
    omega
  have hbyte := h _ hlast (outsideCommands_status d.numHandles i hj)
  rw [Nat.zero_add, ← hbyte]
  congr 1
  omega

/-- `prev_buffer_` shows the ledger's visible image. -/
theorem Tracks.statusImage_prev (h : Tracks d l) :
    statusImage d.mem d.prevBuffer d.numHandles = statusImage l.visible 0 d.numHandles := by
  rw [h.prev]
  by_cases heven : Even l.cycles
  · rw [if_pos heven, Ledger.visible_of_even heven]
    exact h.second.statusImage
  · rw [if_neg heven, Ledger.visible_of_odd heven]
    exact h.first.statusImage

theorem Tracks.prev_ne_null (h : Tracks d l) : d.prevBuffer ≠ NULL := by
  have hnull := h.nonNull
  rw [h.prev]
  unfold NULL at hnull ⊢
  split
  · omega
  · exact hnull

/-- `packCommand` changes commands only, in either half. -/
theorem Tracks.holds_pack (h : Tracks d l) (env : PackEnv) {image : Nat} {content : Area}
    (himage : image = d.masterBuffer ∨ image = d.masterBuffer + imageSize d.table)
    (hholds : Holds d image content) : Holds (packCommand env d) image content := by
  intro k hk hout
  rw [← hholds k hk hout]
  by_cases hsame : image = d.thisBuffer
  · rw [hsame]
    exact packCommand_keeps env d hout
  · -- the half that is not packed lies before or behind all command windows
    have hlt : k < imageSize d.table := hk
    refine packCommand_outside env d fun i hi => ?_
    have hslot : slotSize * (i + 1) ≤ imageSize d.table := slot_le_imageSize hi
    have hthis := h.this
    simp only [slotSize_eq, commandSize] at hslot ⊢
    split at hthis
    · right
      rcases himage with himage | himage
      · omega
      · omega
    · left
      rcases himage with himage | himage
      · omega
      · omega

/-- The first half after a cycle. -/
theorem Tracks.first_update (h : Tracks d l) (c : Cycle) :
    Holds (update c d).driver d.masterBuffer (c.reply.getD l.latest) := by
  intro k hk hout
  rw [update_mem]
  cases c.reply with
  | none => exact h.holds_pack c.env (Or.inl rfl) h.first k hk hout
  | some r =>
    have hin : k < d.masterBufferSize := by
      rw [h.size]
      exact hk
    show blit _ d.masterBuffer r 0 d.masterBufferSize (d.masterBuffer + k) = r k
    rw [blit_inside hin, Nat.zero_add]

/-- The second half after a cycle. -/
theorem Tracks.second_update (h : Tracks d l) (c : Cycle) :
    Holds (update c d).driver (d.masterBuffer + imageSize d.table) l.initial := by
  intro k hk hout
  have hpack := h.holds_pack c.env (Or.inr rfl) h.second k hk hout
  rw [update_mem]
  cases c.reply with
  | none => exact hpack
  | some r =>
    -- the reply stays inside the first half
    rw [← hpack]
    refine blit_outside (Or.inr ?_)
    rw [h.size]
    omega

/-- **Step lemma.** One cycle of the driver is one step of the ledger. -/
theorem Tracks.step (h : Tracks d l) (c : Cycle) : Tracks (update c d).driver (l.next c.reply) := by
  rw [update_driver]
  constructor
  case gathered => exact h.gathered
  case nonNull => exact h.nonNull
  case size => exact h.size
  case this =>
    show d.prevBuffer = if Even (l.next c.reply).cycles then _ else _
    rw [h.prev, if_congr (l.even_next c.reply) rfl rfl, ite_not]
  case prev =>
    show d.thisBuffer = if Even (l.next c.reply).cycles then _ else _
    rw [h.this, if_congr (l.even_next c.reply) rfl rfl, ite_not]
  case first => exact h.first_update c
  case second => exact h.second_update c

/-- **Run lemma.** -/
theorem Tracks.run (cs : List Cycle) :
    ∀ {d : Driver} {l : Ledger}, Tracks d l → Tracks (runCycles d cs) (l.run cs) := by
  induction cs with
  | nil =>
    intro d l h
    exact h
  | cons c cs ih =>
    intro d l h
    exact ih (h.step c)

/-! ## From `setMasterBuffer` on -/

/-- A successful `setMasterBuffer` starts the ledger with the initial image. -/
theorem tracks_setMasterBuffer (env : BufferSetup) (hset : (setMasterBuffer env d).1 = 0) :
    Tracks (setMasterBuffer env d).2 (Ledger.start (initialImage env)) := by
  have hne : d.numHandles ≠ 0 := (setMasterBuffer_fst env d).mp hset
  rw [setMasterBuffer_eq env hne]
  constructor
  case gathered => exact hne
  case nonNull => exact env.buffer_ne
  case size => rfl
  case this => exact (if_pos (by simp [Ledger.start])).symm
  case prev => exact (if_pos (by simp [Ledger.start])).symm
  case first =>
    intro k hk _
    exact startMem_first _ _ _ hk
  case second =>
    intro k hk _
    exact startMem_second _ _ _ hk

end Pr2Ethercat

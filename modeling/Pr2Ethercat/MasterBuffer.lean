import Pr2Ethercat.Configure
import Pr2Ethercat.Exchange

/-!
# `setMasterBuffer`

The last stage of start-up. It asks every WG05 slave to go through
`EC_PREOP_STATE` and `EC_SAFEOP_STATE` to `EC_OP_STATE`, allocates twice the
size of a process-data image, exchanges a cleared image once (with up to 20
attempts) and copies the result into the second half, so that `prev_buffer_`
can be read before the first cycle has run. None of these steps looks at what
the step before it returned; only an empty handle list is refused.

`setMasterBuffer_eq` is the whole effect in closed form. What the two halves
hold afterwards is `initialImage`: the bytes the exchange brought back, or the
zeros of the `memset` when all of its attempts failed (`startMem_first`,
`startMem_second`).
-/

namespace Pr2Ethercat

open ByteArea Retry

/-! ## `changeState` -/

/-- A slave after a request for state `next`, which it `reached` or refused. -/
def SlaveHandler.request (s : SlaveHandler) (next : EcState) (reached : Bool) : SlaveHandler :=
  if reached = true then { s with state := next } else s

/-- `changeState(sh, next_state)`, where `to_state` returns `reached`. The test
is `!to_state(..)`, so the code for success is returned for a refusal. -/
def changeState (sh : Nat) (next : EcState) (reached : Bool) (d : Driver) : Int × Driver :=
  let d' := { d with slaves := Function.update d.slaves sh ((d.slaves sh).request next reached) }
  if reached = false then (0, d') else (-1, d')

/-- One of the three loops over `wg05_slave_handles`, from turn `i` on. The
returned codes are dropped. -/
def changeStates (next : EcState) (reached : Nat → Bool) : List Nat → Nat → Driver → Driver
  | [], _, d => d
  | sh :: rest, i, d => changeStates next reached rest (i + 1) (changeState sh next (reached i) d).2

theorem changeState_snd (sh : Nat) (next : EcState) (reached : Bool) (d : Driver) :
    (changeState sh next reached d).2 =
      { d with slaves := Function.update d.slaves sh ((d.slaves sh).request next reached) } := by
  unfold changeState
  cases reached with
  | false => rfl
  | true => rfl

/-- State changes change slaves only. -/
theorem changeStates_eq (next : EcState) (reached : Nat → Bool) (l : List Nat) :
    ∀ (i : Nat) (d : Driver), changeStates next reached l i d =
      { d with slaves := (changeStates next reached l i d).slaves } := by
  induction l with
  | nil =>
    intro i d
    rfl
  | cons sh l ih =>
    intro i d
    rw [changeStates, ih, changeState_snd]

theorem changeStates_wg05 (next : EcState) (reached : Nat → Bool) (l : List Nat) (i : Nat)
    (d : Driver) : (changeStates next reached l i d).wg05SlaveHandles = d.wg05SlaveHandles := by
  rw [changeStates_eq]

/-- What a loop over `l` does to the slaves, when its first turn is turn `i`. -/
structure StatesChanged (next : EcState) (reached : Nat → Bool) (l : List Nat) (i : Nat)
    (d d' : Driver) : Prop where
  slave : ∀ (k : Nat) (hk : k < l.length),
    d'.slaves l[k] = (d.slaves l[k]).request next (reached (i + k))
  others : ∀ sh, sh ∉ l → d'.slaves sh = d.slaves sh

theorem changeStates_spec (next : EcState) (reached : Nat → Bool) {l : List Nat} (hnd : l.Nodup) :
    ∀ (i : Nat) (d : Driver),
      StatesChanged next reached l i d (changeStates next reached l i d) := by
  induction l with
  | nil =>
    intro i d
    exact ⟨fun k hk => absurd hk (by simp), fun _ _ => rfl⟩
  | cons sh l ih =>
    intro i d
    obtain ⟨hnotin, hnd'⟩ := List.nodup_cons.mp hnd
    rw [changeStates, changeState_snd]
    obtain ⟨hslave, hothers⟩ := ih hnd' (i + 1)
      { d with slaves := Function.update d.slaves sh ((d.slaves sh).request next (reached i)) }
    refine ⟨fun k hk => ?_, fun s hs => ?_⟩
    · cases k with
      | zero =>
        rw [List.getElem_cons_zero, hothers sh hnotin]
        exact Function.update_self ..
      | succ k =>
        have hk' : k < l.length := Nat.lt_of_succ_lt_succ hk
        have hne : l[k] ≠ sh := fun h => hnotin (h ▸ List.getElem_mem hk')
        rw [List.getElem_cons_succ, hslave k hk', show i + 1 + k = i + (k + 1) by omega]
        simp only [Function.update_of_ne hne]
    · have hne : s ≠ sh := fun h => hs (h ▸ List.mem_cons_self ..)
      rw [hothers s fun h => hs (List.mem_cons_of_mem _ h)]
      simp only [Function.update_of_ne hne]

/-! ## The function -/

/-- What the library calls of `setMasterBuffer` do: whether slave `i` of
`wg05_slave_handles` reaches a state it is asked for, where `new` puts the
buffer, and the outcome of each attempt to exchange the first image. -/
structure BufferSetup where
  reached : EcState → Nat → Bool
  buffer : Nat
  replies : Nat → Option Area
  buffer_ne : buffer ≠ NULL

/-- The number of tries of the first exchange. -/
def setupTries : Nat := 20

/-- The network at start-up: nobody has used the mailbox yet. -/
def BufferSetup.network (env : BufferSetup) : Network where
  replies := env.replies
  oob := .new
  oobMutexFree := true
  handle := -1

/-- The three loops of state changes. -/
def bringUp (env : BufferSetup) (d : Driver) : Driver :=
  let d := changeStates .ecPreopState (env.reached .ecPreopState) d.wg05SlaveHandles 0 d
  let d := changeStates .ecSafeopState (env.reached .ecSafeopState) d.wg05SlaveHandles 0 d
  changeStates .ecOpState (env.reached .ecOpState) d.wg05SlaveHandles 0 d

/-- `setMasterBuffer` behind its check of `slave_handles`. Sizes are `unsigned int`. -/
def fillMasterBuffer (env : BufferSetup) (d : Driver) : Driver :=
  let d := bringUp env d
  -- a slot for every slave located, not only for the gathered ones
  let size := ((statusSize + commandSize) * d.table.numSlaves) % 2 ^ 32
  let alloc := (2 * size) % 2 ^ 32
  let d := { d with
    masterBufferSize := size, masterBuffer := env.buffer, masterBufferAlloc := alloc }
  let d := { d with mem := blit d.mem d.masterBuffer (fun _ => 0) 0 alloc }
  -- the result of the exchange is not looked at
  let d := { d with mem := (txandrxPD d size d.masterBuffer setupTries env.network).mem }
  let d := { d with thisBuffer := d.masterBuffer, prevBuffer := d.masterBuffer + size }
  { d with mem := blit d.mem d.prevBuffer d.mem d.thisBuffer size }

/-- `setMasterBuffer()`. -/
def setMasterBuffer (env : BufferSetup) (d : Driver) : Int × Driver :=
  if d.numHandles = 0 then (-1, d) else (0, fillMasterBuffer env d)

/-! ## Its effect -/

/-- The three requests made of the `k`-th WG05 slave, one after the other. -/
def BufferSetup.requests (env : BufferSetup) (s : SlaveHandler) (k : Nat) : SlaveHandler :=
  ((s.request .ecPreopState (env.reached .ecPreopState k)).request
    .ecSafeopState (env.reached .ecSafeopState k)).request .ecOpState (env.reached .ecOpState k)

theorem bringUp_eq (env : BufferSetup) (d : Driver) :
    bringUp env d = { d with slaves := (bringUp env d).slaves } := by
  unfold bringUp
  rw [changeStates_eq, changeStates_eq, changeStates_eq]

/-- What the three loops do to the slaves. -/
structure BroughtUp (env : BufferSetup) (d d' : Driver) : Prop where
  slave : ∀ (k : Nat) (hk : k < d.wg05SlaveHandles.length),
    d'.slaves d.wg05SlaveHandles[k] = env.requests (d.slaves d.wg05SlaveHandles[k]) k
  others : ∀ sh, sh ∉ d.wg05SlaveHandles → d'.slaves sh = d.slaves sh

theorem bringUp_spec (env : BufferSetup) {d : Driver} (hnd : d.wg05SlaveHandles.Nodup) :
    BroughtUp env d (bringUp env d) := by
  have h1 := changeStates_spec .ecPreopState (env.reached .ecPreopState) hnd 0 d
  unfold bringUp
  set d1 := changeStates .ecPreopState (env.reached .ecPreopState) d.wg05SlaveHandles 0 d
  have hl1 : d1.wg05SlaveHandles = d.wg05SlaveHandles := changeStates_wg05 ..
  have h2 := changeStates_spec .ecSafeopState (env.reached .ecSafeopState) hnd 0 d1
  simp only [hl1]
  set d2 := changeStates .ecSafeopState (env.reached .ecSafeopState) d.wg05SlaveHandles 0 d1
  have hl2 : d2.wg05SlaveHandles = d.wg05SlaveHandles := (changeStates_wg05 ..).trans hl1
  have h3 := changeStates_spec .ecOpState (env.reached .ecOpState) hnd 0 d2
  simp only [hl2]
  refine ⟨fun k hk => ?_, fun sh hsh => ?_⟩
  · rw [h3.slave k hk, h2.slave k hk, h1.slave k hk, Nat.zero_add]
    rfl
  · rw [h3.others sh hsh, h2.others sh hsh, h1.others sh hsh]

/-- The image both halves hold when `setMasterBuffer` returns. -/
def initialImage (env : BufferSetup) : Area :=
  (firstSome env.replies setupTries 0).getD fun _ => 0

/-- Size of one half: a slot for every slave located. -/
def imageSize (table : SlaveTable) : Nat := slotSize * table.numSlaves

/-- The memory `setMasterBuffer` leaves behind. -/
def startMem (env : BufferSetup) (table : SlaveTable) (mem : Area) : Area :=
  let zeroed := blit mem env.buffer (fun _ => 0) 0 (2 * imageSize table)
  let exchanged :=
    match firstSome env.replies setupTries 0 with
    | some r => blit zeroed env.buffer r 0 (imageSize table)
    | none => zeroed
  blit exchanged (env.buffer + imageSize table) exchanged env.buffer (imageSize table)

/-- No size computation wraps. -/
theorem imageSize_lt (table : SlaveTable) : 2 * imageSize table < 2 ^ 32 := by
  have h := table.numSlaves_le
  unfold imageSize
  rw [slotSize_eq]
  omega

/-- The slots of the gathered slaves lie inside one half. -/
theorem slots_le_imageSize (table : SlaveTable) :
    slotSize * table.slaveHandles.length ≤ imageSize table :=
  Nat.mul_le_mul_left _ table.length_le

theorem slot_le_imageSize {table : SlaveTable} {i : Nat} (hi : i < table.slaveHandles.length) :
    slotSize * (i + 1) ≤ imageSize table :=
  Nat.mul_le_mul_left _ (Nat.lt_of_lt_of_le hi table.length_le)

/-- `setMasterBuffer` behind its check, in closed form. -/
theorem fillMasterBuffer_eq (env : BufferSetup) (d : Driver) :
    fillMasterBuffer env d =
      { d with
        slaves := (bringUp env d).slaves
        masterBufferSize := imageSize d.table
        masterBuffer := env.buffer
        masterBufferAlloc := 2 * imageSize d.table
        thisBuffer := env.buffer
        prevBuffer := env.buffer + imageSize d.table
        mem := startMem env d.table d.mem } := by
  have hlt := imageSize_lt d.table
  have hsize : (statusSize + commandSize) * d.table.numSlaves % 2 ^ 32 = imageSize d.table := by
    rw [Nat.mod_eq_of_lt]
    · rfl
    · show imageSize d.table < 2 ^ 32
      omega
  unfold fillMasterBuffer
  rw [bringUp_eq]
  simp only [hsize, Nat.mod_eq_of_lt hlt, startMem]
  cases hres : firstSome env.replies setupTries 0 with
  | none => rw [txandrxPD_mem_of_none (by exact hres)]
  | some r => rw [txandrxPD_mem_of_some (by exact hres)]

/-- And the function itself, on a non-empty handle list. -/
theorem setMasterBuffer_eq (env : BufferSetup) {d : Driver} (hne : d.numHandles ≠ 0) :
    setMasterBuffer env d = (0,
      { d with
        slaves := (bringUp env d).slaves
        masterBufferSize := imageSize d.table
        masterBuffer := env.buffer
        masterBufferAlloc := 2 * imageSize d.table
        thisBuffer := env.buffer
        prevBuffer := env.buffer + imageSize d.table
        mem := startMem env d.table d.mem }) := by
  unfold setMasterBuffer
  rw [if_neg hne, fillMasterBuffer_eq]

section StartMem

variable (env : BufferSetup) (table : SlaveTable) (mem : Area)

/-- After `setMasterBuffer` the first half is the initial image. -/
theorem startMem_first {j : Nat} (hj : j < imageSize table) :
    startMem env table mem (env.buffer + j) = initialImage env j := by
  unfold startMem initialImage
  rw [blit_outside (Or.inl (by omega))]
  cases firstSome env.replies setupTries 0 with
  | none =>
    simp only [Option.getD_none]
    exact blit_inside (by omega)
  | some r =>
    simp only [Option.getD_some]
    rw [blit_inside hj, Nat.zero_add]

/-- And so is the second half. -/
theorem startMem_second {j : Nat} (hj : j < imageSize table) :
    startMem env table mem (env.buffer + imageSize table + j) = initialImage env j := by
  -- the second half is a copy of what the first half holds
  have hfirst := startMem_first env table mem hj
  unfold startMem at hfirst ⊢
  rw [blit_outside (Or.inl (by omega))] at hfirst
  rw [blit_inside hj]
  exact hfirst

end StartMem

/-- `setMasterBuffer` returns 0 exactly for a non-empty handle list. -/
theorem setMasterBuffer_fst (env : BufferSetup) (d : Driver) :
    (setMasterBuffer env d).1 = 0 ↔ d.numHandles ≠ 0 := by
  unfold setMasterBuffer
  by_cases hne : d.numHandles = 0
  · rw [if_pos hne]
    exact ⟨fun h => absurd h (by simp), fun h => absurd hne h⟩
  · rw [if_neg hne]
    exact ⟨fun _ => hne, fun _ => rfl⟩

end Pr2Ethercat

import Mathlib.Data.Nat.Choose.Basic
import Pr2Ethercat.Process

/-!
# Where the windows are after another initialisation

`initializePr2EthercatSlaves` may be called again, after a failed start for
example, and nothing of the first call is taken back. `getSlaveHandles` appends
the handles once more, `findWG05slaves` goes through all handles there are then
and appends what it finds to `wg05_slave_handles`, and `configureWG05slaves`
configures each entry of that list anew, from the `start_address` that the last
call has left behind.

So after `r` calls the handles are there `r` times, the WG05 slaves
`1 + 2 + .. + r` times, and the addresses handed out add these up once more. Only
the last configuration of a slave counts: its windows are `choose (r + 2) 3 - 1`
times the number of boards behind their place (`Bus.slotOf`). The image that is
exchanged does not grow. A board whose windows still lie in it obeys the command
of another handle, and one whose windows lie behind it is not commanded any more
(`windows_reinitialised`).
-/

namespace Pr2Ethercat

open ByteArea

namespace Process

/-- `calls`, one after the other; `none` if the process ended in one of them. -/
def run (fresh : Area) (p : Process) (calls : List Call) : Option Process :=
  calls.foldlM (call fresh) p

def Call.initializes : Call → Bool
  | .initializePr2EthercatSlaves _ => true
  | _ => false

theorem run_cons {fresh : Area} {p q : Process} {c : Call} {calls : List Call}
    (hcall : p.call fresh c = some q) : run fresh p (c :: calls) = run fresh q calls := by
  show (p.call fresh c).bind _ = _
  rw [hcall]
  rfl

end Process

/-- A list `r` times. -/
def times (r : Nat) (l : List Nat) : List Nat := (List.replicate r l).flatten

theorem times_add (r s : Nat) (l : List Nat) : times (r + s) l = times r l ++ times s l := by
  unfold times
  rw [List.replicate_add, List.flatten_append]

theorem times_one (l : List Nat) : times 1 l = l := List.append_nil l

theorem length_times (r : Nat) (l : List Nat) : (times r l).length = l.length * r := by
  induction r with
  | zero => rfl
  | succ r ih => rw [times_add, times_one, List.length_append, ih, Nat.mul_succ]

theorem filter_times (p : Nat → Bool) (r : Nat) (l : List Nat) :
    (times r l).filter p = times r (l.filter p) := by
  induction r with
  | zero => rfl
  | succ r ih => rw [times_add, times_add, times_one, times_one, List.filter_append, ih]

theorem mem_times {r : Nat} {l : List Nat} {sh : Nat} (h : sh ∈ times r l) : sh ∈ l := by
  obtain ⟨l', hl', hsh⟩ := List.mem_flatten.mp h
  rw [List.eq_of_mem_replicate hl'] at hsh
  exact hsh

/-! ## One loop over a list with repetitions -/

theorem configureLoop_append (l l' : List Nat) :
    ∀ d : Driver, configureLoop (l ++ l') d = configureLoop l' (configureLoop l d) := by
  induction l with
  | nil => exact fun _ => rfl
  | cons sh l ih => exact fun d => ih _

/-- Each turn hands out the addresses of one slot, and keeps the product codes. -/
theorem configureLoop_addresses :
    ∀ {l : List Nat} {d : Driver}, (∀ sh ∈ l, sh ≠ NULL) → (∀ sh ∈ l, isWG05 d.slaves sh = true) →
      (configureLoop l d).startAddress = d.startAddress + BitVec.ofNat 32 (slotSize * l.length) ∧
        ∀ sh, ((configureLoop l d).slaves sh).productCode = (d.slaves sh).productCode
  | [], d, _, _ => ⟨(BitVec.add_zero _).symm, fun _ => rfl⟩
  | sh :: l, d, hnn, hw => by
    rw [configureLoop,
      configure_wg05 (hnn sh (List.mem_cons_self ..)) (hw sh (List.mem_cons_self ..))]
    have hcodes : ∀ s, (Function.update d.slaves sh
        ((d.slaves sh).configured d.startAddress) s).productCode = (d.slaves s).productCode := by
      intro s
      by_cases hs : s = sh
      · rw [hs, Function.update_self]
        rfl
      · rw [Function.update_of_ne hs]
    have hw' : ∀ s ∈ l, isWG05 (Function.update d.slaves sh
        ((d.slaves sh).configured d.startAddress)) s = true := by
      intro s hs
      rw [isWG05, hcodes]
      exact hw s (List.mem_cons_of_mem _ hs)
    obtain ⟨hstart, hsame⟩ := configureLoop_addresses (d :=
        { d with
          startAddress := d.startAddress + BitVec.ofNat 32 slotSize
          slaves := Function.update d.slaves sh ((d.slaves sh).configured d.startAddress) })
      (fun s hs => hnn s (List.mem_cons_of_mem _ hs)) hw'
    refine ⟨?_, fun s => (hsame s).trans (hcodes s)⟩
    rw [hstart, List.length_cons, BitVec.add_assoc, ← BitVec.ofNat_add, Nat.mul_succ,
      Nat.add_comm slotSize]

/-- Bringing slaves up changes neither their product codes nor their windows. -/
theorem changeStates_keeps (next : EcState) (reached : Nat → Bool) (sh : Nat) (l : List Nat) :
    ∀ (i : Nat) (d : Driver),
      ((changeStates next reached l i d).slaves sh).productCode = (d.slaves sh).productCode ∧
        ((changeStates next reached l i d).slaves sh).fmmuConfig = (d.slaves sh).fmmuConfig := by
  induction l with
  | nil => exact fun _ _ => ⟨rfl, rfl⟩
  | cons s l ih =>
    intro i d
    have hkept : ∀ x : SlaveHandler, (x.request next (reached i)).productCode = x.productCode ∧
        (x.request next (reached i)).fmmuConfig = x.fmmuConfig := by
      intro x
      rw [SlaveHandler.request_eq]
      exact ⟨rfl, rfl⟩
    obtain ⟨hcode, hconfig⟩ := ih (i + 1) (changeState s next (reached i) d).2
    rw [changeStates, hcode, hconfig, changeState_snd]
    show (Function.update d.slaves s _ sh).productCode = _ ∧
      (Function.update d.slaves s _ sh).fmmuConfig = _
    by_cases hsh : sh = s
    · rw [hsh, Function.update_self]
      exact hkept _
    · rw [Function.update_of_ne hsh]
      exact ⟨rfl, rfl⟩

theorem bringUp_keeps (env : BufferSetup) (d : Driver) (sh : Nat) :
    ((bringUp env d).slaves sh).productCode = (d.slaves sh).productCode ∧
      ((bringUp env d).slaves sh).fmmuConfig = (d.slaves sh).fmmuConfig := by
  unfold bringUp
  obtain ⟨hcode₁, hconfig₁⟩ := changeStates_keeps .ecPreopState (env.reached .ecPreopState) sh
    d.wg05SlaveHandles 0 d
  set d₁ := changeStates .ecPreopState (env.reached .ecPreopState) d.wg05SlaveHandles 0 d
  obtain ⟨hcode₂, hconfig₂⟩ := changeStates_keeps .ecSafeopState (env.reached .ecSafeopState) sh
    d₁.wg05SlaveHandles 0 d₁
  set d₂ := changeStates .ecSafeopState (env.reached .ecSafeopState) d₁.wg05SlaveHandles 0 d₁
  obtain ⟨hcode₃, hconfig₃⟩ := changeStates_keeps .ecOpState (env.reached .ecOpState) sh
    d₂.wg05SlaveHandles 0 d₂
  exact ⟨hcode₃.trans (hcode₂.trans hcode₁), hconfig₃.trans (hconfig₂.trans hconfig₁)⟩

/-- Filling the buffer leaves what finding and configuring slaves has done. -/
theorem fillMasterBuffer_keeps (env : BufferSetup) (d : Driver) :
    (fillMasterBuffer env d).wg05SlaveHandles = d.wg05SlaveHandles ∧
      (fillMasterBuffer env d).startAddress = d.startAddress ∧
      ∀ sh, ((fillMasterBuffer env d).slaves sh).productCode = (d.slaves sh).productCode ∧
        ((fillMasterBuffer env d).slaves sh).fmmuConfig = (d.slaves sh).fmmuConfig := by
  have hframe := bringUp_eq env d
  refine ⟨?_, ?_, bringUp_keeps env d⟩
  · show (bringUp env d).wg05SlaveHandles = _
    rw [hframe]
  · show (bringUp env d).startAddress = _
    rw [hframe]

theorem windowStart_add (k i : Nat) :
    windowStart k + BitVec.ofNat 32 (slotSize * i) = windowStart (k + i) := by
  unfold windowStart
  rw [BitVec.add_assoc, ← BitVec.ofNat_add, ← Nat.mul_add]

/-- A list of slaves that is there `m + 1` times: the last time counts. -/
theorem configure_repeated {d : Driver} {l : List Nat} {m start : Nat}
    (hfound : d.wg05SlaveHandles = times (m + 1) l) (hstart : d.startAddress = windowStart start)
    (hnd : l.Nodup) (hnn : ∀ sh ∈ l, sh ≠ NULL) (hw : ∀ sh ∈ l, isWG05 d.slaves sh = true) :
    (configureWG05slaves d).startAddress = windowStart (start + l.length * (m + 1)) ∧
      (∀ sh, ((configureWG05slaves d).slaves sh).productCode = (d.slaves sh).productCode) ∧
      ∀ (j : Nat) (hj : j < l.length), ((configureWG05slaves d).slaves l[j]).fmmuConfig
        = some (wg05Windows (windowStart (start + l.length * m + j))) := by
  obtain ⟨haddress, hcodes⟩ := configureLoop_addresses (l := times m l) (d := d)
    (fun sh hsh => hnn sh (mem_times hsh)) (fun sh hsh => hw sh (mem_times hsh))
  rw [hstart, length_times, windowStart_add] at haddress
  unfold configureWG05slaves
  rw [hfound, times_add, times_one, configureLoop_append]
  set before := configureLoop (times m l) d
  have hw' : ∀ sh ∈ l, isWG05 before.slaves sh = true := by
    intro sh hsh
    rw [isWG05, hcodes]
    exact hw sh hsh
  obtain ⟨haddress', hcodes'⟩ := configureLoop_addresses hnn hw'
  rw [haddress, windowStart_add, Nat.add_assoc, ← Nat.mul_succ] at haddress'
  refine ⟨haddress', fun sh => (hcodes' sh).trans (hcodes sh), fun j hj => ?_⟩
  rw [(configureLoop_spec hnd hnn hw').slave j hj, haddress, windowStart_add]
  rfl

/-! ## The invariant -/

/-- The WG05 slaves of the ring that get a handle, in ring order. -/
def Bus.wg05s (bus : Bus) : List Nat := (gatheredHandles bus).filter (isWG05 bus.slaves)

/-- Where in the image the `j`-th of them has its windows after `r`
initialisations, counted in slots. -/
def Bus.slotOf (bus : Bus) (r j : Nat) : Nat := bus.wg05s.length * ((r + 2).choose 3 - 1) + j

/-- The process has been initialised `r` times. -/
structure Reinitialised (bus : Bus) (r : Nat) (p : Process) : Prop where
  handles : p.slaveHandles = times r (gatheredHandles bus)
  found : p.driver.wg05SlaveHandles = times ((r + 1).choose 2) bus.wg05s
  address : p.driver.startAddress = windowStart (bus.wg05s.length * (r + 2).choose 3)
  codes : ∀ sh, (p.driver.slaves sh).productCode = (bus.slaves sh).productCode
  located : r ≠ 0 → p.driver.table.numSlaves = bus.numSlaves
  windows : r ≠ 0 → ∀ (j : Nat) (hj : j < bus.wg05s.length),
    (p.driver.slaves bus.wg05s[j]).fmmuConfig = some (wg05Windows (windowStart (bus.slotOf r j)))

namespace Reinitialised

variable {bus : Bus} {r : Nat} {p p' : Process} {fresh : Area}

theorem start (bus : Bus) (mem : Area) : Reinitialised bus 0 (Process.start bus.slaves mem) where
  handles := rfl
  found := rfl
  address := rfl
  codes := fun _ => rfl
  located := fun h => absurd rfl h
  windows := fun h => absurd rfl h

/-- What `findWG05slaves` finds among the handles of all initialisations. -/
theorem found_again (h : Reinitialised bus r p) :
    (p.slaveHandles ++ gatheredHandles bus).foldl (findStep p.driver.slaves)
        p.driver.wg05SlaveHandles
      = times ((r + 1).choose 2 + r + 1) bus.wg05s := by
  have hsame : isWG05 p.driver.slaves = isWG05 bus.slaves := by
    funext sh
    rw [isWG05, h.codes]
    rfl
  have hall : p.slaveHandles ++ gatheredHandles bus = times (r + 1) (gatheredHandles bus) := by
    rw [h.handles, times_add, times_one]
  rw [hall, foldl_findStep _ _ _ fun sh hsh => gatheredHandles_nonNull (mem_times hsh),
    filter_times, hsame, h.found, Nat.add_assoc, times_add ((r + 1).choose 2)]
  rfl

theorem choose_two (r : Nat) : (r + 2).choose 2 = (r + 1).choose 2 + r + 1 := by
  have hpascal : (r + 2).choose 2 = (r + 1).choose 1 + (r + 1).choose 2 :=
    Nat.choose_succ_succ' (r + 1) 1
  rw [Nat.choose_one_right] at hpascal
  omega

/-- The slots handed out before initialisation `r + 1` and in it. -/
theorem choose_three (r : Nat) :
    (r + 3).choose 3 = (r + 2).choose 3 + ((r + 1).choose 2 + r) + 1 := by
  have hpascal : (r + 3).choose 3 = (r + 2).choose 2 + (r + 2).choose 3 :=
    Nat.choose_succ_succ' (r + 2) 2
  rw [choose_two] at hpascal
  omega

/-- **Step lemma**, for one more initialisation. -/
theorem initialized (h : Reinitialised bus r p) {env : StartupEnv} (hbus : env.bus = bus)
    (hcall : p.initializePr2EthercatSlaves env = some p') : Reinitialised bus (r + 1) p' := by
  unfold Process.initializePr2EthercatSlaves at hcall
  cases hmaster : initializeECatMaster env.master env.bus.numSlaves with
  | none =>
    rw [hmaster] at hcall
    exact absurd hcall (by simp)
  | some _ =>
    rw [hmaster, hbus] at hcall
    have htable : (getSlaveHandles bus).2.slaveHandles = gatheredHandles bus := handlesLoop_eq bus
    have hp' := (Option.some.inj hcall).symm
    simp only [htable] at hp'
    set d := findWG05slaves (p.slaveHandles ++ gatheredHandles bus)
      { p.driver with table := (getSlaveHandles bus).2 }
    have hfound : d.wg05SlaveHandles = times ((r + 1).choose 2 + r + 1) bus.wg05s := h.found_again
    have hw : ∀ sh ∈ bus.wg05s, isWG05 d.slaves sh = true := by
      intro sh hsh
      have hcode := h.codes sh
      have hbus := (List.mem_filter.mp hsh).2
      rw [isWG05] at hbus ⊢
      exact hcode ▸ hbus
    obtain ⟨haddress, hcodes, hwindows⟩ := configure_repeated hfound h.address
      ((nodup_gatheredHandles bus).filter _)
      (fun sh hsh => gatheredHandles_nonNull (List.mem_of_mem_filter hsh)) hw
    set c := configureWG05slaves d
    have hc : c.table = (getSlaveHandles bus).2 ∧ c.wg05SlaveHandles = d.wg05SlaveHandles := by
      have hframe := Process.configureLoop_frame d.wg05SlaveHandles d
      rw [show c = configureLoop d.wg05SlaveHandles d from rfl, hframe]
      exact ⟨rfl, rfl⟩
    -- filling the buffer, or not, makes no difference to all this
    have hkept : p'.driver.table = c.table ∧ p'.driver.wg05SlaveHandles = c.wg05SlaveHandles ∧
        p'.driver.startAddress = c.startAddress ∧
        ∀ sh, (p'.driver.slaves sh).productCode = (c.slaves sh).productCode ∧
          (p'.driver.slaves sh).fmmuConfig = (c.slaves sh).fmmuConfig := by
      rw [hp']
      show (ite _ _ _ : Driver).table = _ ∧ _
      split
      · exact ⟨rfl, rfl, rfl, fun _ => ⟨rfl, rfl⟩⟩
      · exact ⟨(Process.fillMasterBuffer_buffer env.buffers c).1,
          fillMasterBuffer_keeps env.buffers c⟩
    obtain ⟨hktable, hkfound, hkaddress, hkslaves⟩ := hkept
    refine ⟨?_, ?_, ?_, ?_, fun _ => ?_, fun _ j hj => ?_⟩
    · have hearlier : p'.earlier = p.slaveHandles := by rw [hp']
      show p'.earlier ++ p'.driver.table.slaveHandles = _
      rw [hearlier, hktable, hc.1, htable, h.handles, times_add, times_one]
    · rw [hkfound, hc.2, hfound, choose_two]
    · rw [hkaddress, haddress, choose_three, ← Nat.mul_add]
      rfl
    · intro sh
      exact (hkslaves sh).1.trans ((hcodes sh).trans (h.codes sh))
    · rw [hktable, hc.1]
      rfl
    · rw [(hkslaves _).2, hwindows j hj, Bus.slotOf, choose_three, ← Nat.mul_add]
      rfl

/-- **Step lemma**, for any call. -/
theorem call (h : Reinitialised bus r p) {c : Process.Call}
    (hbus : ∀ env, c = .initializePr2EthercatSlaves env → env.bus = bus)
    (hcall : p.call fresh c = some p') :
    Reinitialised bus (r + if c.initializes = true then 1 else 0) p' := by
  cases c with
  | initializePr2EthercatSlaves env => exact h.initialized (hbus env rfl) hcall
  | update c =>
    obtain rfl := Process.eq_of_update hcall
    exact ⟨h.handles, h.found, h.address, h.codes, h.located, h.windows⟩
  | monitorChanges threshold =>
    rw [← Option.some.inj hcall]
    exact ⟨h.handles, h.found, h.address, h.codes, h.located, h.windows⟩

/-- **Run lemma.** -/
theorem run (calls : List Process.Call) :
    ∀ {r : Nat} {p p' : Process}, Reinitialised bus r p →
      (∀ env, .initializePr2EthercatSlaves env ∈ calls → env.bus = bus) →
      Process.run fresh p calls = some p' →
      Reinitialised bus (r + calls.countP Process.Call.initializes) p' := by
  induction calls with
  | nil =>
    intro r p p' h _ hrun
    rw [← Option.some.inj hrun]
    exact h
  | cons c calls ih =>
    intro r p p' h hbus hrun
    obtain ⟨q, hcall, hrest⟩ := Option.bind_eq_some_iff.mp hrun
    have hq := h.call (fun env hc => hbus env (hc ▸ List.mem_cons_self ..)) hcall
    have hp' := ih hq (fun env hc => hbus env (List.mem_cons_of_mem _ hc)) hrest
    rw [List.countP_cons, Nat.add_comm (calls.countP _), ← Nat.add_assoc]
    exact hp'

end Reinitialised

/-! ## What the boards are sent then -/

/-- A slot has its command if it is the slot of a handle, and what it had if not. -/
theorem Process.slice_packCommand (env : PackEnv) (p : Process) (s : Nat) :
    slice (p.packCommand env).mem (p.driver.thisBuffer + slotSize * s) commandSize =
      if s < p.numHandles then (slotCommand env s).bytes
      else slice p.driver.mem (p.driver.thisBuffer + slotSize * s) commandSize := by
  by_cases hs : s < p.numHandles
  · rw [if_pos hs]
    exact slice_packSlots env p.driver hs
  · rw [if_neg hs]
    refine slice_eq_iff.mpr fun k _ => packSlots_outside env p.driver fun i hi => ?_
    right
    simp only [commandSize, slotSize_eq]
    omega

/-- The only board of a ring, initialised twice. -/
theorem refusingBoard_twice :
    ∃ p, Process.run (fun _ => 0) (Process.start refusingBoard.bus.slaves fun _ => 0)
      [.initializePr2EthercatSlaves refusingBoard, .initializePr2EthercatSlaves refusingBoard]
        = some p := by
  have hmaster : initializeECatMaster refusingBoard.master refusingBoard.bus.numSlaves ≠ none := by
    decide
  obtain ⟨p, hp⟩ := Process.initializePr2EthercatSlaves_isSome hmaster
    (Process.start refusingBoard.bus.slaves fun _ => 0)
  obtain ⟨q, hq⟩ := Process.initializePr2EthercatSlaves_isSome hmaster p
  refine ⟨q, ?_⟩
  rw [Process.run_cons (c := .initializePr2EthercatSlaves refusingBoard) hp,
    Process.run_cons (c := .initializePr2EthercatSlaves refusingBoard) hq]
  rfl

end Pr2Ethercat

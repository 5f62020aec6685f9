import Pr2Ethercat.Atomicity
import Pr2Ethercat.Boards

/-!
# How old the commands of a frame are

`main` sets `target_slave` and `current_amplitude` while `packCommand` runs, and
the frame that goes out next may be one that was packed a cycle ago. This file
says what of that can be seen on the ring, for any interleaving of the threads:
each command of a frame is off, or belongs to the slave that was the target at
some moment since the cycle before began, with an amplitude of such a moment
(`frames_fresh`).

`Ordered` is that for one command, about a set `G` of globals, and
`RealTimePc.Fresh` what it means for the two halves at each place of the
real-time thread, after `n` cycles have begun: the half that a cycle has packed
is in order as far as it has been packed, the other one from the second cycle
on. Receiving changes no command, as long as it is from the slaves that it is
received (`RingStep`).
-/

namespace Pr2Ethercat

open ByteArea Layout Mesa

/-! ## Orders -/

section Orders

variable (sin : Rat → Rat) (G : Shared → Prop)

/-- The bytes are no command, or the one for slave `i` while the globals were in `G`. -/
def Ordered (i : Nat) (bytes : List Byte) : Prop :=
  bytes = List.replicate commandSize 0 ∨
    ∃ target g, G target ∧ G g ∧ target.targetSlave.toNat = i ∧
      bytes = (targetCommand sin g).bytes

/-- The first `n` commands of the half at `image` are in order. -/
def OrderedUpTo (n : Nat) (d : Driver) (image : Nat) : Prop :=
  ∀ i < n, Ordered sin G i (slice d.mem (image + slotSize * i) commandSize)

/-- What is in order when `n` cycles have begun. -/
def RealTimePc.Fresh (n : Nat) (d : Driver) : RealTimePc → Prop
  | .testing | .waiting | .locking | .unlocking | .finished =>
    (1 ≤ n → OrderedUpTo sin G d.numHandles d d.prevBuffer) ∧
      (2 ≤ n → OrderedUpTo sin G d.numHandles d d.thisBuffer)
  | .packing i _ =>
    (1 ≤ n → OrderedUpTo sin G i d d.thisBuffer) ∧
      (2 ≤ n → OrderedUpTo sin G d.numHandles d d.prevBuffer)
  | .commanding i _ =>
    (1 ≤ n → OrderedUpTo sin G i d d.thisBuffer ∧
      ∃ target, G target ∧ target.targetSlave.toNat = i) ∧
      (2 ≤ n → OrderedUpTo sin G d.numHandles d d.prevBuffer)
  | .exchanging _ | .serving | .saving | .swappingThis _ =>
    (1 ≤ n → OrderedUpTo sin G d.numHandles d d.thisBuffer) ∧
      (2 ≤ n → OrderedUpTo sin G d.numHandles d d.prevBuffer)
  | .swappingPrev tmp =>
    (1 ≤ n → OrderedUpTo sin G d.numHandles d tmp) ∧
      (2 ≤ n → OrderedUpTo sin G d.numHandles d d.prevBuffer)

end Orders

section Order

variable {sin : Rat → Rat} {G : Shared → Prop} {d d' : Driver} {n image : Nat}

theorem Ordered.mono {G' : Shared → Prop} (hG : ∀ g, G g → G' g) {i : Nat} {bytes : List Byte}
    (h : Ordered sin G i bytes) : Ordered sin G' i bytes := by
  rcases h with hoff | ⟨target, g, htarget, hg, hrank, hcommand⟩
  · exact Or.inl hoff
  · exact Or.inr ⟨target, g, hG _ htarget, hG _ hg, hrank, hcommand⟩

/-- Bytes that agree on the commands are in the same order. -/
theorem OrderedUpTo.of_same (h : OrderedUpTo sin G n d image)
    (hsame : ∀ i < n, slice d'.mem (image + slotSize * i) commandSize
      = slice d.mem (image + slotSize * i) commandSize) : OrderedUpTo sin G n d' image := by
  intro i hi
  rw [hsame i hi]
  exact h i hi

/-- Storing a command leaves the others alone. -/
theorem OrderedUpTo.put (h : OrderedUpTo sin G n d image) {slot : Nat} {bytes : List Byte}
    (hlen : bytes.length = commandSize)
    (hapart : ∀ i < n, slot + commandSize ≤ image + slotSize * i ∨
      image + slotSize * i + commandSize ≤ slot)
    (hmem : d'.mem = put d.mem slot bytes) : OrderedUpTo sin G n d' image := by
  refine h.of_same fun i hi => slice_eq_iff.mpr fun j hj => ?_
  have hout := hapart i hi
  rw [hmem, put_outside (by omega)]

/-- The command stored last may be the next one. -/
theorem OrderedUpTo.succ (h : OrderedUpTo sin G n d image)
    (hlast : Ordered sin G n (slice d.mem (image + slotSize * n) commandSize)) :
    OrderedUpTo sin G (n + 1) d image := by
  intro i hi
  rcases Nat.lt_or_eq_of_le (Nat.le_of_lt_succ hi) with hlt | rfl
  · exact h i hlt
  · exact hlast

end Order

/-! ## The driver in the middle of a cycle -/

/-- The driver at a cycle's boundaries: its halves, and the slaves configured
from `table` and `slaves`. -/
structure OnRing (env : StartupEnv) (d : Driver) : Prop where
  halves : Halves d
  sameTable : d.table = (getSlaveHandles env.bus).2
  sameSlaves : d.slaves = (bringUp env.buffers env.configured).slaves

theorem OnRing.update {env : StartupEnv} {d : Driver} (h : OnRing env d) (c : Cycle) :
    OnRing env (update c d).driver :=
  ⟨h.halves.update c, h.sameTable, h.sameSlaves⟩

theorem onRing_started {env : StartupEnv}
    (hne : (getSlaveHandles env.bus).2.slaveHandles ≠ []) : OnRing env (started env) := by
  have hhandles : env.configured.numHandles ≠ 0 := by
    rw [Driver.numHandles, env.configured_table, Ne, List.length_eq_zero_iff]
    exact hne
  refine ⟨?_, started_table env hhandles, slaves_setMasterBuffer env.buffers env.mem hne⟩
  exact halves_setMasterBuffer env.buffers ((setMasterBuffer_fst _ _).mpr hhandles)

/-- Before it has begun to swap the pointers, it has changed memory only. -/
theorem RealTimePc.View.onRing {env : StartupEnv} {sin : Rat → Rat} {a d : Driver}
    {pc : RealTimePc} (h : pc.View sin a d) (ha : OnRing env a)
    (hpc : ∀ tmp, pc ≠ .swappingPrev tmp) : OnRing env d := by
  have hthis : d.thisBuffer = a.thisBuffer := by
    cases pc with
    | testing | waiting | locking | unlocking | finished => rw [show d = a from h]
    | packing =>
      obtain ⟨_, _, _, rfl⟩ := h
      rfl
    | commanding =>
      obtain ⟨_, _, _, _, _, rfl⟩ := h
      rfl
    | exchanging | serving | saving =>
      obtain ⟨_, rfl⟩ := h
      rfl
    | swappingThis =>
      obtain ⟨_, _, rfl⟩ := h
      rfl
    | swappingPrev tmp => exact absurd rfl (hpc tmp)
  obtain ⟨mem, thisBuffer, rfl⟩ := h.same
  obtain ⟨hsize, halloc, hwrap, hpos, hhalves⟩ := ha.halves
  have hthis' : thisBuffer = a.thisBuffer := hthis
  subst hthis'
  exact ⟨⟨hsize, halloc, hwrap, hpos, hhalves⟩, ha.sameTable, ha.sameSlaves⟩

section Halves

variable {d : Driver}

/-- No command of one half overlaps one of the other. -/
theorem Halves.apart (h : Halves d) {i j : Nat} (hi : i < d.numHandles) (hj : j < d.numHandles) :
    d.thisBuffer + slotSize * i + commandSize ≤ d.prevBuffer + slotSize * j ∨
      d.prevBuffer + slotSize * j + commandSize ≤ d.thisBuffer + slotSize * i := by
  have hfit := h.slots_le
  simp only [slotSize_eq, commandSize] at hfit ⊢
  rcases h.halves with ⟨hthis, hprev⟩ | ⟨hthis, hprev⟩
  · left
    omega
  · right
    omega

/-- A half begins where the exchange does, or behind it. -/
theorem Halves.this_eq (h : Halves d) :
    d.thisBuffer = d.masterBuffer ∨ d.thisBuffer = d.masterBuffer + d.masterBufferSize := by
  rcases h.halves with ⟨hthis, _⟩ | ⟨hthis, _⟩
  · exact Or.inl hthis
  · exact Or.inr hthis

theorem Halves.prev_eq (h : Halves d) :
    d.prevBuffer = d.masterBuffer ∨ d.prevBuffer = d.masterBuffer + d.masterBufferSize := by
  rcases h.halves with ⟨_, hprev⟩ | ⟨_, hprev⟩
  · exact Or.inr hprev
  · exact Or.inl hprev

end Halves

/-! ## The steps of a cycle -/

/-- A step in which a reply, if there is one, has come back from the slaves `ring`. -/
def RingStep (sin : Rat → Rat) (fresh : Area) (threshold : Int) (ring : List Nat) (s : Threads)
    (a : ThreadAction) (s' : Threads) : Prop :=
  ThreadStep sin fresh threshold s a s' ∧
    ∀ r, a = .attempt (some r) →
      CameBack s.driver ring (fun k => s.driver.mem (s.driver.masterBuffer + k)) r

/-- A cycle begins with the lock. -/
def ThreadAction.begins : ThreadAction → Bool
  | .rtLock => true
  | _ => false

section Cycle

variable {env : StartupEnv} {sin : Rat → Rat} {G : Shared → Prop} {s : Threads} {n i slot : Nat}

/-- Before any cycle has begun nothing need be in order. -/
theorem fresh_zero (pc : RealTimePc) (d : Driver) : pc.Fresh sin G 0 d := by
  cases pc with
  | _ => exact ⟨fun h => absurd h (by omega), fun h => absurd h (by omega)⟩

theorem fresh_packTurn (hd : OnRing env s.driver) (hi : i < s.driver.numHandles)
    (hslot : slot = s.driver.thisBuffer + slotSize * i) (hG : G s.globals)
    (h : RealTimePc.Fresh sin G n s.driver (.packing i slot)) :
    (s.packTurn i slot).rt.Fresh sin G n (s.packTurn i slot).driver := by
  obtain ⟨hthis, hprev⟩ := h
  have hthis' : 1 ≤ n → OrderedUpTo sin G i (s.packTurn i slot).driver s.driver.thisBuffer := by
    intro hn
    refine (hthis hn).put (List.length_replicate ..) (fun j hj => Or.inr ?_) rfl
    rw [hslot]
    simp only [slotSize_eq, commandSize]
    omega
  have hprev' : 2 ≤ n →
      OrderedUpTo sin G s.driver.numHandles (s.packTurn i slot).driver s.driver.prevBuffer := by
    intro hn
    refine (hprev hn).put (List.length_replicate ..) (fun j hj => ?_) rfl
    rw [hslot]
    exact hd.halves.apart hi hj
  show RealTimePc.Fresh sin G n _ (if _ then _ else _)
  by_cases htarget : i = s.globals.targetSlave.toNat
  · rw [if_pos htarget]
    exact ⟨fun hn => ⟨hthis' hn, s.globals, hG, htarget.symm⟩, hprev'⟩
  · rw [if_neg htarget]
    refine ⟨fun hn => (hthis' hn).succ (Or.inl ?_), hprev'⟩
    rw [← hslot]
    exact slice_put s.driver.mem slot (List.replicate commandSize 0)

theorem fresh_command (hd : OnRing env s.driver) (hi : i < s.driver.numHandles)
    (hslot : slot = s.driver.thisBuffer + slotSize * i) (now : Timeval)
    (hG : G (s.command sin i slot now).globals)
    (h : RealTimePc.Fresh sin G n s.driver (.commanding i slot)) :
    (s.command sin i slot now).rt.Fresh sin G n (s.command sin i slot now).driver := by
  obtain ⟨hthis, hprev⟩ := h
  have hlen : (targetCommand sin (s.command sin i slot now).globals).bytes.length = commandSize :=
    WG0XCommand.length_bytes _
  constructor
  · intro hn
    obtain ⟨hbefore, target, hGtarget, htarget⟩ := hthis hn
    have hkept : OrderedUpTo sin G i (s.command sin i slot now).driver s.driver.thisBuffer := by
      refine hbefore.put hlen (fun j hj => Or.inr ?_) rfl
      rw [hslot]
      simp only [slotSize_eq, commandSize]
      omega
    refine hkept.succ (Or.inr ⟨target, _, hGtarget, hG, htarget, ?_⟩)
    rw [← hslot, ← hlen]
    exact slice_put s.driver.mem slot _
  · intro hn
    refine (hprev hn).put hlen (fun j hj => ?_) rfl
    rw [hslot]
    exact hd.halves.apart hi hj

/-- A reply changes no command in either half. -/
theorem fresh_attempt {ring : List Nat}
    (hring : ∀ sh ∈ ring, sh ∈ env.wg05s ∨ (env.bus.slaves sh).fmmuConfig = none)
    (hd : OnRing env s.driver) (reply : Option Area)
    (hback : ∀ r, reply = some r →
      CameBack s.driver ring (fun k => s.driver.mem (s.driver.masterBuffer + k)) r)
    (h : RealTimePc.Fresh sin G n s.driver (.exchanging i)) :
    (s.attempt i reply).rt.Fresh sin G n (s.attempt i reply).driver := by
  obtain ⟨hthis, hprev⟩ := h
  have hsame : ∀ half, half = s.driver.masterBuffer ∨
      half = s.driver.masterBuffer + s.driver.masterBufferSize → ∀ j < s.driver.numHandles,
        slice (s.attempt i reply).driver.mem (half + slotSize * j) commandSize
          = slice s.driver.mem (half + slotSize * j) commandSize := by
    intro half hhalf j hj
    cases reply with
    | none => rfl
    | some r =>
      rcases hhalf with rfl | rfl
      · have hfit := hd.halves.slots_le
        refine command_cameBack env.buffers env.mem hd.sameSlaves hring (hback r rfl) ?_
        simp only [slotSize_eq, commandSize] at hfit ⊢
        omega
      · refine slice_eq_iff.mpr fun k _ => blit_outside (Or.inr ?_)
        omega
  have hboth : (1 ≤ n → OrderedUpTo sin G s.driver.numHandles (s.attempt i reply).driver
        s.driver.thisBuffer) ∧
      (2 ≤ n → OrderedUpTo sin G s.driver.numHandles (s.attempt i reply).driver
        s.driver.prevBuffer) :=
    ⟨fun hn => (hthis hn).of_same (hsame _ hd.halves.this_eq),
      fun hn => (hprev hn).of_same (hsame _ hd.halves.prev_eq)⟩
  exact iteInduction (motive := RealTimePc.Fresh sin G n (s.attempt i reply).driver)
    (fun _ => hboth) fun _ => iteInduction
      (motive := RealTimePc.Fresh sin G n (s.attempt i reply).driver)
      (fun _ => hboth) fun _ => hboth

end Cycle

/-! ## Any interleaving -/

section Run

variable {sin : Rat → Rat} {fresh : Area} {threshold : Int} {env : StartupEnv} {ring : List Nat}
  {G : Shared → Prop} {s s' : Threads} {a : ThreadAction} {n : Nat}

/-- The driver at the boundary before is the one started, a number of cycles later. -/
def AtRing (sin : Rat → Rat) (fresh : Area) (threshold : Int) (env : StartupEnv)
    (s : Threads) : Prop :=
  ∃ t, Shows sin fresh threshold s t ∧ OnRing env t.driver

theorem AtRing.step (h : AtRing sin fresh threshold env s)
    (hstep : ThreadStep sin fresh threshold s a s') : AtRing sin fresh threshold env s' := by
  obtain ⟨t, hshows, hring⟩ := h
  obtain ⟨_, t', run, hshows', _⟩ := threads_matched sin fresh threshold s a s' t hshows hstep
  have hkeeps : ∀ t b t', OnRing env t.driver → PointerStep fresh threshold t b t' →
      OnRing env t'.driver := by
    intro t b t' ht hb
    cases hb with
    | cycle c => exact ht.update c
    | _ => exact ht
  exact ⟨t', hshows', run.invariant hkeeps hring⟩

theorem atRing_start (hne : (getSlaveHandles env.bus).2.slaveHandles ≠ []) :
    AtRing sin fresh threshold env (Threads.start (started env)) :=
  ⟨_, shows_start sin fresh threshold (nullTogether_started env), onRing_started hne⟩

theorem AtRing.onRing (h : AtRing sin fresh threshold env s) (hrt : s.rt ≠ .finished)
    (hpc : ∀ tmp, s.rt ≠ .swappingPrev tmp) : OnRing env s.driver := by
  obtain ⟨t, hshows, hring⟩ := h
  exact (hshows.view_realTime rfl hrt).onRing hring hpc

/-- The place of the real-time thread, as its code has it. -/
theorem AtRing.view (h : AtRing sin fresh threshold env s) (hrt : s.rt ≠ .finished) :
    ∃ d, s.rt.View sin d s.driver := by
  obtain ⟨t, hshows, _⟩ := h
  exact ⟨_, hshows.view_realTime rfl hrt⟩

/-- **Step lemma.** -/
theorem fresh_step (hring : ∀ sh ∈ ring, sh ∈ env.wg05s ∨ (env.bus.slaves sh).fmmuConfig = none)
    (hat : AtRing sin fresh threshold env s) (h : s.rt.Fresh sin G n s.driver)
    (hstep : RingStep sin fresh threshold ring s a s') (hG : G s.globals) (hG' : G s'.globals) :
    s'.rt.Fresh sin G (if a.begins = true then n + 1 else n) s'.driver := by
  obtain ⟨hstep, hback⟩ := hstep
  cases hstep with
  | rtTest hpc =>
    rw [hpc] at h
    exact iteInduction (motive := RealTimePc.Fresh sin G n s.driver) (fun _ => h) fun _ => h
  | rtWait hpc =>
    rw [hpc] at h
    exact h
  | rtLock hpc hfree =>
    rw [hpc] at h
    refine ⟨fun _ i hi => absurd hi (Nat.not_lt_zero i), fun hn => h.1 ?_⟩
    have hcount : 2 ≤ n + 1 := hn
    omega
  | packTurn hpc hi =>
    obtain ⟨d, hview⟩ := hat.view (by rw [hpc]; simp)
    have hd := hat.onRing (by rw [hpc]; simp) (by rw [hpc]; simp)
    rw [hpc] at h hview
    obtain ⟨_, hslot, _, hsame⟩ := hview
    exact fresh_packTurn hd hi (by rw [hslot, hsame]; rfl) hG h
  | command now hpc =>
    obtain ⟨d, hview⟩ := hat.view (by rw [hpc]; simp)
    have hd := hat.onRing (by rw [hpc]; simp) (by rw [hpc]; simp)
    rw [hpc] at h hview
    obtain ⟨hi, hslot, _, _, _, hsame⟩ := hview
    exact fresh_command hd (by rw [hsame]; exact hi) (by rw [hslot, hsame]; rfl) now hG' h
  | packed hpc hi =>
    obtain ⟨d, hview⟩ := hat.view (by rw [hpc]; simp)
    rw [hpc] at h hview
    obtain ⟨hle, _, _, hsame⟩ := hview
    have hlast : s.driver.numHandles ≤ _ := Nat.le_of_not_lt hi
    exact ⟨fun hn j hj => h.1 hn j (Nat.lt_of_lt_of_le hj hlast), h.2⟩
  | attempt reply hpc =>
    have hd := hat.onRing (by rw [hpc]; simp) (by rw [hpc]; simp)
    rw [hpc] at h
    exact fresh_attempt hring hd reply (fun r hr => hback r (congrArg _ hr)) h
  | serve handle hpc hr =>
    rw [hpc] at h
    exact h
  | save hpc =>
    rw [hpc] at h
    exact h
  | swapThis hpc =>
    obtain ⟨d, hview⟩ := hat.view (by rw [hpc]; simp)
    rw [hpc] at h hview
    obtain ⟨rfl, _, hsame⟩ := hview
    have hthis : s.driver.thisBuffer = d.thisBuffer := by
      rw [hsame]
      rfl
    refine ⟨fun hn => ?_, h.2⟩
    show OrderedUpTo sin G s.driver.numHandles _ d.thisBuffer
    rw [← hthis]
    exact h.1 hn
  | swapPrev hpc =>
    obtain ⟨d, hview⟩ := hat.view (by rw [hpc]; simp)
    rw [hpc] at h hview
    obtain ⟨_, _, hsame⟩ := hview
    have hthis : s.driver.thisBuffer = s.driver.prevBuffer := by
      rw [hsame]
      rfl
    refine ⟨h.1, fun hn => ?_⟩
    show OrderedUpTo sin G s.driver.numHandles _ s.driver.thisBuffer
    rw [hthis]
    exact h.2 hn
  | rtUnlock hpc =>
    rw [hpc] at h
    exact h
  | close reached hpc =>
    have hrt := hat.choose_spec.1.joined.realTime (by rw [hpc]; trivial)
    have hframe := (closeOperationalSlaves_spec reached s.driver).frame
    rw [hrt] at h
    show s.rt.Fresh sin G n (closeOperationalSlaves reached s.driver).driver
    rw [hrt, hframe]
    exact h
  | _ => exact h

/-- **Run lemma.** -/
theorem fresh_run (hring : ∀ sh ∈ ring, sh ∈ env.wg05s ∨ (env.bus.slaves sh).fmmuConfig = none)
    (hat : AtRing sin fresh threshold env s) (h : s.rt.Fresh sin G n s.driver)
    {as : List ThreadAction}
    (run : Run (Within (fun s => G s.globals) (RingStep sin fresh threshold ring)) s as s') :
    AtRing sin fresh threshold env s' ∧
      s'.rt.Fresh sin G (n + as.countP ThreadAction.begins) s'.driver := by
  have hkeeps : ∀ n s a s', AtRing sin fresh threshold env s ∧ s.rt.Fresh sin G n s.driver →
      Within (fun s => G s.globals) (RingStep sin fresh threshold ring) s a s' →
        AtRing sin fresh threshold env s' ∧
          s'.rt.Fresh sin G (if a.begins = true then n + 1 else n) s'.driver := by
    intro n s a s' ⟨hat, h⟩ ⟨hstep, hG, hG'⟩
    exact ⟨hat.step hstep.1, fresh_step hring hat h hstep hG hG'⟩
  exact run.invariant_countP hkeeps ⟨hat, h⟩

/-- The frame that the next attempt sends. -/
def Threads.frame (s : Threads) : Attempt where
  datalen := s.driver.masterBufferSize
  data := s.driver.masterBuffer
  bytes := slice s.driver.mem s.driver.masterBuffer s.driver.masterBufferSize

/-- What each board copies out of the frame is in order. -/
def BoardsOrdered (sin : Rat → Rat) (G : Shared → Prop) (env : StartupEnv) (s : Threads) : Prop :=
  ∀ (i : Nat) (hi : i < (getSlaveHandles env.bus).2.slaveHandles.length),
    isWG05 env.bus.slaves (getSlaveHandles env.bus).2.slaveHandles[i] = true →
      ∃ command, frameCommand s.driver s.frame (getSlaveHandles env.bus).2.slaveHandles[i]
          = some command ∧
        Ordered sin G (rank (isWG05 env.bus.slaves) (getSlaveHandles env.bus).2.slaveHandles i)
          command

theorem boardsOrdered_of_fresh (hat : AtRing sin fresh threshold env s) (hn : 2 ≤ n) {k : Nat}
    (hpc : s.rt = .exchanging k) (h : s.rt.Fresh sin G n s.driver) :
    BoardsOrdered sin G env s := by
  have hd := hat.onRing (by rw [hpc]; simp) (by rw [hpc]; simp)
  rw [hpc] at h
  have hfirst : OrderedUpTo sin G s.driver.numHandles s.driver s.driver.masterBuffer := by
    rcases hd.halves.halves with ⟨hthis, _⟩ | ⟨_, hprev⟩
    · rw [← hthis]
      exact h.1 (by omega)
    · rw [← hprev]
      exact h.2 hn
  intro i hi hw
  have hlt : rank (isWG05 env.bus.slaves) (getSlaveHandles env.bus).2.slaveHandles i
      < s.driver.numHandles := by
    rw [Driver.numHandles, hd.sameTable]
    exact Nat.lt_of_le_of_lt (rank_le ..) hi
  have hfit := hd.halves.slots_le
  refine ⟨_, frameCommand_rank env.buffers env.mem hd.sameSlaves hi hw ?_ s.driver.mem _,
    hfirst _ hlt⟩
  simp only [slotSize_eq, commandSize] at hfit ⊢
  omega

end Run

/-- **Freshness on the ring.** Take any run of the threads from start-up on in
which what is received comes back from the slaves, and a stretch at its end in
which two cycles have begun. Whatever the interleaving, each board's command in
the frame that is about to go out is off, or belongs to the slave that was the
target at some moment of the stretch, with the amplitude of such a moment. -/
theorem frames_fresh (sin : Rat → Rat) (fresh : Area) (threshold : Int) (env : StartupEnv)
    (hne : (getSlaveHandles env.bus).2.slaveHandles ≠ []) (ring : List Nat)
    (hring : ∀ sh ∈ ring, sh ∈ env.wg05s ∨ (env.bus.slaves sh).fmmuConfig = none)
    (G : Shared → Prop) (as as' : List ThreadAction) (s s' : Threads)
    (run : Run (RingStep sin fresh threshold ring) (Threads.start (started env)) as s)
    (run' : Run (Within (fun s => G s.globals) (RingStep sin fresh threshold ring)) s as' s')
    (htwo : 2 ≤ as'.countP ThreadAction.begins) (k : Nat) (hpc : s'.rt = .exchanging k) :
    BoardsOrdered sin G env s' := by
  have hat : AtRing sin fresh threshold env s :=
    run.invariant (fun _ _ _ h hstep => h.step hstep.1) (atRing_start hne)
  obtain ⟨hat', h⟩ := fresh_run hring hat (fresh_zero s.rt s.driver) run'
  rw [Nat.zero_add] at h
  exact boardsOrdered_of_fresh hat' htwo hpc h

/-- One board, and 0 has been read as its number before the first cycle. -/
def zeroRead : Threads :=
  { Threads.start (started refusingBoard) with
    globals := { Shared.initial with targetSlave := 0 }
    main := .readingAmplitude 10 }

/-- The 13 of `wg05.h` is forgotten in the second cycle after another target was read. -/
theorem refusingBoard_second_frame :
    ∃ s, s.rt = .exchanging 0 ∧
      BoardsOrdered (fun _ => 0) (fun g => g.targetSlave = 0) refusingBoard s := by
  have run : Run (RingStep (fun _ => 0) (fun _ => 0) 1 [1]) (Threads.start (started refusingBoard))
      [.readTarget (some 0)] zeroRead := Run.single ⟨.readTarget (some 0) rfl, nofun⟩
  have run3 : Run (Within (fun s => s.globals.targetSlave = 0)
      (RingStep (fun _ => 0) (fun _ => 0) 1 [1])) zeroRead [.rtTest, .rtWait, .rtLock] _ :=
    ((Run.single ⟨⟨.rtTest rfl, nofun⟩, rfl, rfl⟩).next ⟨⟨.rtWait rfl, nofun⟩, rfl, rfl⟩).next
      ⟨⟨.rtLock rfl rfl, nofun⟩, rfl, rfl⟩
  have run5 := (run3.next ⟨⟨.packTurn rfl (by decide), nofun⟩, rfl, rfl⟩).next
    ⟨⟨.command ⟨0, 0⟩ rfl, nofun⟩, rfl, rfl⟩
  have run6 := run5.next ⟨⟨.packed rfl (by decide), nofun⟩, rfl, rfl⟩
  -- the frame comes back as it was sent
  have run7 := run6.next ⟨⟨.attempt (some _) rfl, fun r hr => by
    cases hr
    exact ⟨_, fun _ hdiff => absurd rfl hdiff, rfl⟩⟩, rfl, rfl⟩
  have run11 := (((run7.next ⟨⟨.save rfl, nofun⟩, rfl, rfl⟩).next
    ⟨⟨.swapThis rfl, nofun⟩, rfl, rfl⟩).next ⟨⟨.swapPrev rfl, nofun⟩, rfl, rfl⟩).next
    ⟨⟨.rtUnlock rfl, nofun⟩, rfl, rfl⟩
  have run14 := ((run11.next ⟨⟨.rtTest rfl, nofun⟩, rfl, rfl⟩).next
    ⟨⟨.rtWait rfl, nofun⟩, rfl, rfl⟩).next ⟨⟨.rtLock rfl rfl, nofun⟩, rfl, rfl⟩
  have run16 := (run14.next ⟨⟨.packTurn rfl (by decide), nofun⟩, rfl, rfl⟩).next
    ⟨⟨.command ⟨0, 0⟩ rfl, nofun⟩, rfl, rfl⟩
  have run17 := run16.next ⟨⟨.packed rfl (by decide), nofun⟩, rfl, rfl⟩
  exact ⟨_, rfl, frames_fresh _ _ _ refusingBoard (by decide) [1] (by decide) _ _ _ _ _ run run17
    (by decide) 0 rfl⟩

end Pr2Ethercat

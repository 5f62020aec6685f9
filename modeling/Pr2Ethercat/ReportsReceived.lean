import Pr2Ethercat.CommandAge
import Pr2Ethercat.Stopping

/-!
# Where the reported encoder counts come from

The monitor thread compares two images byte by byte while the other threads run:
the half that `prev_buffer_` designated a while ago, and its own copy of an
earlier one. It has the lock for each walk, but it reads the pointer before it
has it, and the real-time thread keeps storing commands and replies into both
halves.

Still no count is torn. At every moment the statuses in each half, and those in
the backup once there is one, are the statuses of a single image (`Sourced`): one
that some attempt of the run received, or the one `setMasterBuffer` left in both
halves. That one was received too, unless all attempts of its exchange failed;
then it is the zeros the buffer was cleared to, which no slave has sent. So every
line the monitor prints is the count in a slot of one of these images, and what
it was compared with is the count in the same slot of one of them
(`reports_received`).
-/

namespace Pr2Ethercat

open ByteArea Mesa

/-! ## The images of a run -/

/-- What an attempt receives. -/
def ThreadAction.reply? : ThreadAction → Option Area
  | .attempt reply => reply
  | _ => none

/-- The images the counts can come from: what the attempts have received up to the
end of a run, and before that what `setMasterBuffer` received, or the zeros it
cleared the buffer to if no attempt of its exchange succeeded. -/
def imagesIn (env : StartupEnv) (as : List ThreadAction) : List Area :=
  initialImage env.buffers :: as.filterMap ThreadAction.reply?

/-- The first `n` statuses of the image at `image` are those of an image of `R`. -/
def FromOne (R : List Area) (n : Nat) (mem : Area) (image : Nat) : Prop :=
  ∃ r ∈ R, statusImage mem image n = statusImage r 0 n

/-- The line is the count in a slot of one of the images, and was compared with
the count in the same slot of one of them. -/
def ReportOf (R : List Area) (n : Nat) (threshold : Int) (line : Nat × BitVec 32) : Prop :=
  line.1 < n ∧ ∃ now ∈ R, ∃ before ∈ R,
    line.2 = encoderCountAt now (slotSize * line.1 + commandSize) ∧
      Comparison.exceeds ⟨line.1, line.2, encoderCountAt before (slotSize * line.1 + commandSize)⟩
        threshold = true

/-- The address of a half. -/
def HalfAt (d : Driver) (image : Nat) : Prop :=
  image = d.masterBuffer ∨ image = d.masterBuffer + d.masterBufferSize

/-- There is a backup. -/
def Begun (statics : Option Monitor) : Prop := ∀ m, statics = some m → m.monitorDeltaInit = true

/-- What the monitor thread has in hand. -/
def MonitorPc.Sourced (R : List Area) (d : Driver) (statics : Option Monitor) : MonitorPc → Prop
  | .fetching => Begun statics
  | .lockingCompare p => HalfAt d p ∧ Begun statics
  | .comparing i p b =>
    (∃ half, HalfAt d half ∧ p = half + slotSize * i) ∧ b = slotSize * i ∧ Begun statics
  | .unlockingCopy | .marking => ∀ m, statics = some m → FromOne R d.numHandles m.monitorBackup 0
  | .testing | .waiting | .entering | .deciding | .unlockingCompare | .rechecking => True
  | .lockingCopy | .copying | .finished => True

/-- Everything comes from the images of `R`. -/
structure Sourced (R : List Area) (threshold : Int) (s : Threads) : Prop where
  halves : ∀ image, HalfAt s.driver image → FromOne R s.driver.numHandles s.driver.mem image
  backup : ∀ m, s.statics = some m → m.monitorDeltaInit = true →
    FromOne R s.driver.numHandles m.monitorBackup 0
  monitor : s.monitor.Sourced R s.driver s.statics
  printed : ∀ line ∈ s.printed, ReportOf R s.driver.numHandles threshold line

section Mono

variable {R R' : List Area} {n : Nat}

theorem FromOne.mono {mem : Area} {image : Nat} (h : FromOne R n mem image) (hsub : R ⊆ R') :
    FromOne R' n mem image := by
  obtain ⟨r, hr, hsame⟩ := h
  exact ⟨r, hsub hr, hsame⟩

theorem ReportOf.mono {threshold : Int} {line : Nat × BitVec 32}
    (h : ReportOf R n threshold line) (hsub : R ⊆ R') : ReportOf R' n threshold line := by
  obtain ⟨hlt, now, hnow, before, hbefore, hline⟩ := h
  exact ⟨hlt, now, hsub hnow, before, hsub hbefore, hline⟩

theorem Sourced.mono {threshold : Int} {s : Threads} (h : Sourced R threshold s) (hsub : R ⊆ R') :
    Sourced R' threshold s := by
  refine ⟨fun image himage => (h.halves image himage).mono hsub,
    fun m hm hinit => (h.backup m hm hinit).mono hsub, ?_,
    fun line hline => (h.printed line hline).mono hsub⟩
  have hmonitor := h.monitor
  cases hpc : s.monitor with
  | unlockingCopy | marking =>
    rw [hpc] at hmonitor
    exact fun m hm => (hmonitor m hm).mono hsub
  | _ =>
    rw [hpc] at hmonitor
    exact hmonitor

end Mono

/-- The count in slot `i`, of the image and of what it comes from. -/
theorem FromOne.count {R : List Area} {n : Nat} {mem : Area} {image : Nat}
    (h : FromOne R n mem image) {i : Nat} (hi : i < n) :
    ∃ r ∈ R, encoderCountAt mem (image + slotSize * i + commandSize)
      = encoderCountAt r (slotSize * i + commandSize) := by
  obtain ⟨r, hr, hsame⟩ := h
  refine ⟨r, hr, encoderCountAt_congr (slice_eq_iff.mpr fun j hj => ?_)⟩
  have hbyte := statusImage_eq_iff.mp hsame i hi j hj
  rw [Nat.zero_add] at hbyte
  exact hbyte

/-- Bytes outside the statuses do not matter. -/
theorem FromOne.of_same {R : List Area} {n : Nat} {mem mem' : Area} {image image' : Nat}
    (h : FromOne R n mem image)
    (hsame : ∀ i < n, ∀ j < statusSize, mem' (image' + slotSize * i + commandSize + j)
      = mem (image + slotSize * i + commandSize + j)) : FromOne R n mem' image' := by
  obtain ⟨r, hr, hstatus⟩ := h
  exact ⟨r, hr, (statusImage_eq_iff.mpr hsame).trans hstatus⟩

/-! ## Stores -/

section Stores

variable {R : List Area} {d : Driver}

/-- A command stored in either half. -/
theorem fromOne_put (h : ∀ image, HalfAt d image → FromOne R d.numHandles d.mem image)
    (hfit : slotSize * d.numHandles ≤ d.masterBufferSize) {half i : Nat} (hhalf : HalfAt d half)
    (hi : i < d.numHandles) {bytes : List Byte} (hlen : bytes.length = commandSize) :
    ∀ image, HalfAt d image →
      FromOne R d.numHandles (put d.mem (half + slotSize * i) bytes) image := by
  intro image himage
  refine (h image himage).of_same fun k hk j hj => put_outside ?_
  rw [hlen]
  simp only [slotSize_eq, commandSize, statusSize] at hfit hj ⊢
  unfold HalfAt at hhalf himage
  -- every status is behind its own command and in front of the next one
  rcases Nat.lt_or_ge k i with hki | hki
  · omega
  · omega

/-- A reply goes into the first half, whole. -/
theorem fromOne_attempt {R' : List Area}
    (h : ∀ image, HalfAt d image → FromOne R' d.numHandles d.mem image)
    (hfit : slotSize * d.numHandles ≤ d.masterBufferSize) {r : Area} (hr : r ∈ R') :
    ∀ image, HalfAt d image →
      FromOne R' d.numHandles (blit d.mem d.masterBuffer r 0 d.masterBufferSize) image := by
  intro image himage
  rcases himage with rfl | rfl
  · refine ⟨r, hr, statusImage_congr fun k hk => ?_⟩
    exact blit_inside (Nat.lt_of_lt_of_le hk hfit)
  · refine (h _ (Or.inr rfl)).of_same fun i _ j _ => blit_outside (Or.inr ?_)
    omega

end Stores

/-! ## Any interleaving -/

section Run

variable {sin : Rat → Rat} {fresh : Area} {threshold : Int} {env : StartupEnv} {R R' : List Area}
  {s s' : Threads} {a : ThreadAction}

/-- While `main` has not returned, the buffers are where `setMasterBuffer` put them. -/
theorem AtRing.placed (h : AtRing sin fresh threshold env s) (hmain : s.main ≠ .finished) :
    slotSize * s.driver.numHandles ≤ s.driver.masterBufferSize ∧
      HalfAt s.driver s.driver.prevBuffer := by
  obtain ⟨t, hshows, hring⟩ := h
  obtain ⟨_, _, hsame⟩ := (hshows.realTime hmain).same
  rw [hsame]
  exact ⟨hring.halves.slots_le, hring.halves.prev_eq⟩

theorem AtRing.placed_of_monitor (h : AtRing sin fresh threshold env s)
    (hmonitor : s.monitor ≠ .finished) :
    slotSize * s.driver.numHandles ≤ s.driver.masterBufferSize ∧
      HalfAt s.driver s.driver.prevBuffer :=
  h.placed (h.choose_spec.1.joined.main_of_monitor hmonitor)

/-- The slot that `packCommand` is about to store into. -/
theorem AtRing.packing_slot (h : AtRing sin fresh threshold env s) {i slot : Nat}
    (hpc : s.rt = .packing i slot ∨ s.rt = .commanding i slot) :
    slotSize * s.driver.numHandles ≤ s.driver.masterBufferSize ∧
      ∃ half, HalfAt s.driver half ∧ slot = half + slotSize * i ∧
        (s.rt = .commanding i slot → i < s.driver.numHandles) := by
  have hrt : s.rt ≠ .finished := by rcases hpc with hpc | hpc <;> rw [hpc] <;> simp
  have hnot : ∀ tmp, s.rt ≠ .swappingPrev tmp := by
    rcases hpc with hpc | hpc <;> rw [hpc] <;> simp
  have hd := h.onRing hrt hnot
  obtain ⟨d, hview⟩ := h.view hrt
  refine ⟨hd.halves.slots_le, s.driver.thisBuffer, hd.halves.this_eq, ?_, ?_⟩
  · rcases hpc with hpc | hpc
    · rw [hpc] at hview
      obtain ⟨_, hslot, _, hsame⟩ := hview
      rw [hslot, hsame]
      rfl
    · rw [hpc] at hview
      obtain ⟨_, hslot, _, _, _, hsame⟩ := hview
      rw [hslot, hsame]
      rfl
  · intro hpc
    rw [hpc] at hview
    obtain ⟨hi, _, _, _, _, hsame⟩ := hview
    rw [hsame]
    exact hi

/-- A step that changes what is in the halves. -/
theorem Sourced.of_mem (h : Sourced R threshold s) {mem : Area} {rt : RealTimePc}
    {globals : Shared} (hhalves : ∀ image, HalfAt s.driver image →
      FromOne R s.driver.numHandles mem image) :
    Sourced R threshold
      { s with
        globals := globals
        driver := { s.driver with mem := mem }
        rt := rt } :=
  ⟨hhalves, h.backup, h.monitor, h.printed⟩

/-- A step of the monitor thread outside its two walks. -/
theorem Sourced.of_monitor (h : Sourced R threshold s) {mutex : Option Locker} {pc : MonitorPc}
    (hpc : pc.Sourced R s.driver s.statics) :
    Sourced R threshold
      { s with
        mutex := mutex
        monitor := pc } :=
  ⟨h.halves, h.backup, hpc, h.printed⟩

theorem mem_printed_compareTurn {m : Monitor} {i p b : Nat} {line : Nat × BitVec 32}
    (h : line ∈ (s.compareTurn threshold m i p b).printed) :
    line ∈ s.printed ∨ (s.comparison m i p b).exceeds threshold = true ∧
      line = (i, (s.comparison m i p b).now) := by
  have hline : line ∈ if (s.comparison m i p b).exceeds threshold = true then
      s.printed ++ [(i, (s.comparison m i p b).now)] else s.printed := h
  by_cases hexceeds : (s.comparison m i p b).exceeds threshold = true
  · rw [if_pos hexceeds] at hline
    rcases List.mem_append.mp hline with hold | hnew
    · exact Or.inl hold
    · exact Or.inr ⟨hexceeds, List.mem_singleton.mp hnew⟩
  · rw [if_neg hexceeds] at hline
    exact Or.inl hline

/-- The turn of the comparison at slot `i`. -/
theorem Sourced.compareTurn (h : Sourced R threshold s) {m : Monitor} {i p b : Nat}
    (hpc : s.monitor = .comparing i p b) (hm : s.statics = some m) (hi : i < s.driver.numHandles) :
    Sourced R threshold (s.compareTurn threshold m i p b) := by
  have hmonitor := h.monitor
  rw [hpc] at hmonitor
  obtain ⟨⟨half, hhalf, rfl⟩, rfl, hbegun⟩ := hmonitor
  refine ⟨h.halves, h.backup, ⟨⟨half, hhalf, ?_⟩, ?_, hbegun⟩, ?_⟩
  · rw [Nat.mul_succ, Nat.add_assoc]
  · exact (Nat.mul_succ ..).symm
  · intro line hline
    rcases mem_printed_compareTurn hline with hold | ⟨hexceeds, rfl⟩
    · exact h.printed line hold
    · obtain ⟨now, hnow, hcount⟩ := (h.halves half hhalf).count hi
      obtain ⟨before, hbefore, hcount'⟩ := (h.backup m hm (hbegun m hm)).count hi
      rw [Nat.zero_add] at hcount'
      refine ⟨hi, now, hnow, before, hbefore, hcount, ?_⟩
      rw [← hcount']
      exact hexceeds

/-- `memcpy` takes a whole half. -/
theorem Sourced.copy (h : Sourced R threshold s) {m : Monitor}
    (hfit : slotSize * s.driver.numHandles ≤ s.driver.masterBufferSize)
    (hprev : HalfAt s.driver s.driver.prevBuffer) : Sourced R threshold (s.copy m) := by
  have hcopied : FromOne R s.driver.numHandles
      (blit m.monitorBackup 0 s.driver.mem s.driver.prevBuffer s.driver.masterBufferSize) 0 := by
    refine (h.halves _ hprev).of_same fun i hi j hj => ?_
    have hin : slotSize * i + commandSize + j < s.driver.masterBufferSize := by
      simp only [slotSize_eq, commandSize, statusSize] at hfit hj ⊢
      omega
    rw [show 0 + slotSize * i + commandSize + j = 0 + (slotSize * i + commandSize + j) by omega,
      blit_inside hin, Nat.add_assoc, Nat.add_assoc]
    congr 1
    omega
  refine ⟨h.halves, ?_, ?_, h.printed⟩
  · intro m' hm' _
    obtain rfl := Option.some.inj hm'
    exact hcopied
  · intro m' hm'
    obtain rfl := Option.some.inj hm'
    exact hcopied

/-- **Step lemma.** -/
theorem Sourced.step (h : Sourced R threshold s) (hat : AtRing sin fresh threshold env s)
    (hsub : R ⊆ R') (hreply : ∀ r, a = .attempt (some r) → r ∈ R')
    (hstep : ThreadStep sin fresh threshold s a s') : Sourced R' threshold s' := by
  have h' := h.mono hsub
  cases hstep with
  | packTurn hpc hi =>
    obtain ⟨hfit, half, hhalf, rfl, _⟩ := hat.packing_slot (Or.inl hpc)
    exact h'.of_mem (fromOne_put h'.halves hfit hhalf hi (List.length_replicate ..))
  | command now hpc =>
    obtain ⟨hfit, half, hhalf, rfl, hi⟩ := hat.packing_slot (Or.inr hpc)
    exact h'.of_mem (fromOne_put h'.halves hfit hhalf (hi hpc) (WG0XCommand.length_bytes _))
  | attempt reply hpc =>
    cases reply with
    | none => exact h'.of_mem h'.halves
    | some r =>
      have hd := hat.onRing (by rw [hpc]; simp) (by rw [hpc]; simp)
      exact h'.of_mem (fromOne_attempt h'.halves hd.halves.slots_le (hreply r rfl))
  | monitorTest hpc =>
    refine h'.of_monitor ?_
    exact iteInduction (motive := MonitorPc.Sourced R' s.driver s.statics)
      (fun _ => trivial) fun _ => trivial
  | monitorWait hpc => exact h'.of_monitor trivial
  | enter hpc =>
    refine ⟨h'.halves, ?_, trivial, h'.printed⟩
    intro m hm hinit
    obtain rfl := Option.some.inj hm
    cases hstatics : s.statics with
    | none =>
      rw [hstatics] at hinit
      exact absurd hinit Bool.false_ne_true
    | some m' =>
      rw [hstatics] at hinit
      exact h'.backup m' hstatics hinit
  | decideCompare hpc hm hcompares =>
    refine h'.of_monitor fun m' hm' => ?_
    obtain rfl := Option.some.inj (hm.symm.trans hm')
    exact hcompares.1
  | skipCompare hpc hm hcompares => exact h'.of_monitor trivial
  | fetch hpc =>
    have hmonitor := h'.monitor
    rw [hpc] at hmonitor
    exact h'.of_monitor ⟨(hat.placed_of_monitor (by rw [hpc]; simp)).2, hmonitor⟩
  | lockCompare hpc hfree =>
    have hmonitor := h'.monitor
    rw [hpc] at hmonitor
    exact h'.of_monitor ⟨⟨_, hmonitor.1, rfl⟩, rfl, hmonitor.2⟩
  | compareTurn hpc hm hi => exact h'.compareTurn hpc hm hi
  | compared hpc hi => exact h'.of_monitor trivial
  | unlockCompare hpc => exact h'.of_monitor trivial
  | decideCopy hpc hprev => exact h'.of_monitor trivial
  | skipCopy hpc hprev => exact h'.of_monitor trivial
  | lockCopy hpc hfree => exact h'.of_monitor trivial
  | copy hpc hm =>
    obtain ⟨hfit, hprev⟩ := hat.placed_of_monitor (by rw [hpc]; simp)
    exact h'.copy hfit hprev
  | unlockCopy hpc =>
    have hmonitor := h'.monitor
    rw [hpc] at hmonitor
    exact h'.of_monitor hmonitor
  | @mark m hpc hm =>
    have hmonitor := h'.monitor
    rw [hpc] at hmonitor
    refine ⟨h'.halves, ?_, trivial, h'.printed⟩
    intro m' hm' _
    obtain rfl := Option.some.inj hm'
    have hbackup := hmonitor m hm
    exact hbackup
  | close reached hpc =>
    have hframe := (closeOperationalSlaves_spec reached s.driver).frame
    show Sourced R' threshold
      { s with
        driver := (closeOperationalSlaves reached s.driver).driver
        main := .finished }
    rw [hframe]
    exact ⟨h'.halves, h'.backup, h'.monitor, h'.printed⟩
  | _ => exact ⟨h'.halves, h'.backup, h'.monitor, h'.printed⟩

/-- Both halves begin with the image `setMasterBuffer` leaves there. -/
theorem sourced_start (hne : (getSlaveHandles env.bus).2.slaveHandles ≠ []) :
    Sourced (imagesIn env []) threshold (Threads.start (started env)) := by
  have hhandles : env.configured.numHandles ≠ 0 := by
    rw [Driver.numHandles, env.configured_table]
    exact fun h => hne (List.length_eq_zero_iff.mp h)
  have hd := onRing_started hne
  refine ⟨?_, fun m hm => absurd hm (Option.some_ne_none m).symm, trivial,
    fun line hline => absurd hline List.not_mem_nil⟩
  intro image himage
  refine ⟨_, List.mem_cons_self .., statusImage_congr fun k hk => ?_⟩
  have hk' : k < imageSize (getSlaveHandles env.bus).2 := by
    have hfit := hd.halves.slots_le
    rw [started_eq env hhandles] at hfit hk
    exact Nat.lt_of_lt_of_le hk hfit
  rw [Nat.zero_add]
  rcases himage with rfl | rfl
  · show (started env).mem ((started env).masterBuffer + k) = _
    rw [started_eq env hhandles]
    exact startMem_first _ _ _ hk'
  · show (started env).mem ((started env).masterBuffer + (started env).masterBufferSize + k) = _
    rw [started_eq env hhandles]
    exact startMem_second _ _ _ hk'

theorem imagesIn_append (as : List ThreadAction) :
    imagesIn env as ⊆ imagesIn env (as ++ [a]) ∧
      ∀ r, a = .attempt (some r) → r ∈ imagesIn env (as ++ [a]) := by
  unfold imagesIn
  rw [List.filterMap_append]
  constructor
  · exact List.cons_subset_cons _ (List.subset_append_left ..)
  · rintro r rfl
    exact List.mem_cons_of_mem _ (List.mem_append_right _ (List.mem_singleton_self r))

/-- **Run lemma.** -/
theorem sourced_run (hne : (getSlaveHandles env.bus).2.slaveHandles ≠ [])
    {as : List ThreadAction}
    (run : Run (ThreadStep sin fresh threshold) (Threads.start (started env)) as s) :
    AtRing sin fresh threshold env s ∧ Sourced (imagesIn env as) threshold s ∧
      s.driver.numHandles = (getSlaveHandles env.bus).2.slaveHandles.length := by
  induction run with
  | start =>
    refine ⟨atRing_start hne, sourced_start hne, ?_⟩
    show (started env).table.slaveHandles.length = _
    rw [(onRing_started hne).sameTable]
  | @next as s u a _ hstep ih =>
    obtain ⟨hat, hs, hn⟩ := ih
    obtain ⟨hsub, hreply⟩ := @imagesIn_append env a as
    exact ⟨hat.step hstep, hs.step hat hsub hreply hstep, hstep.numHandles_eq.trans hn⟩

end Run

/-- **No count is torn.** In every run of the threads from start-up on, every line
printed is the count in a slot of one image of the run, and was compared with the
count in the same slot of one image of the run. -/
theorem reports_received (sin : Rat → Rat) (fresh : Area) (threshold : Int) (env : StartupEnv)
    (hne : (getSlaveHandles env.bus).2.slaveHandles ≠ []) (as : List ThreadAction) (s : Threads)
    (run : Run (ThreadStep sin fresh threshold) (Threads.start (started env)) as s) :
    ∀ line ∈ s.printed,
      ReportOf (imagesIn env as) (getSlaveHandles env.bus).2.slaveHandles.length threshold
        line := by
  obtain ⟨_, hs, hn⟩ := sourced_run hne run
  rw [← hn]
  exact hs.printed

/-- A reply with 5 in the place of the count, and zeros elsewhere. -/
def countsFive : Area := fun k => if k = commandSize + encoderCountOffset then 5 else 0

/-- The board has moved between the first call of `monitorChanges` and the second. -/
theorem refusingBoard_reports :
    ∃ (as : List ThreadAction) (s : Threads), s.printed = [(0, 5)] ∧
      ReportOf (imagesIn refusingBoard as) 1 1 (0, 5) := by
  have run3 : Run (ThreadStep (fun _ => 0) (fun _ => 0) 1) (Threads.start (started refusingBoard))
      [.monitorTest, .monitorWait, .enter] _ :=
    ((Run.single (.monitorTest rfl)).next (.monitorWait rfl)).next (.enter rfl)
  have run9 := (((((run3.next (.skipCompare rfl rfl (by decide))).next
    (.decideCopy rfl (by decide))).next (.lockCopy rfl rfl)).next (.copy rfl rfl)).next
    (.unlockCopy rfl)).next (.mark rfl rfl)
  have run14 := ((((run9.next (.rtTest rfl)).next (.rtWait rfl)).next (.rtLock rfl rfl)).next
    (.packTurn rfl (by decide))).next (.packed rfl (by decide))
  have run19 := ((((run14.next (.attempt (some countsFive) rfl)).next (.save rfl)).next
    (.swapThis rfl)).next (.swapPrev rfl)).next (.rtUnlock rfl)
  have run24 := ((((run19.next (.monitorTest rfl)).next (.monitorWait rfl)).next
    (.enter rfl)).next (.decideCompare rfl rfl (by decide))).next (.fetch rfl)
  have run26 := (run24.next (.lockCompare rfl rfl)).next (.compareTurn rfl rfl (by decide))
  obtain ⟨as, s, run, hprinted⟩ : ∃ as s, Run (ThreadStep (fun _ => 0) (fun _ => 0) 1)
      (Threads.start (started refusingBoard)) as s ∧ s.printed = [(0, 5)] := ⟨_, _, run26, rfl⟩
  refine ⟨as, s, hprinted, ?_⟩
  refine reports_received _ _ _ refusingBoard (by decide) as s run (0, 5) ?_
  rw [hprinted]
  exact List.mem_singleton_self _

end Pr2Ethercat

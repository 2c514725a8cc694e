import SlottedMesh.Proofs.Radio.Order

/-!
# Who holds the schedule when the radio acts

Requests wait while the schedule is held, and a hand-over begins only when nobody holds it.  From
then on the gate does not look again: what the radio's driver takes hold of while a request is
applied does not keep the next one of the same hand-over from the radio.

* `HandingOver` is what holds all through a hand-over: each request of it was applied while nobody
  held the schedule, or the driver had taken hold of it earlier in the same hand-over.
* `excused_call` says so of every call from outside, and `applied_unheld_or_taken` of whole runs;
  so a driver that never takes hold of the schedule gets each request when nobody holds it.
* `applied_while_held` is a driver that gets a request while it holds the schedule itself.
-/

namespace SlottedMesh.Gate

/-- The schedule was taken hold of in these moments, and a driver with this script does that. -/
def Taken (script : List Moment → List Call) (moments : List Moment) : Prop :=
  (∃ m ∈ moments, m.event = .acquired) ∧ ∃ past, Call.acquire ∈ script past

/-- Each request that was applied in these moments was applied while nobody held the schedule, or
after the driver took hold of it in the same moments. -/
def Excused (script : List Moment → List Call) (moments : List Moment) : Prop :=
  ∀ m earlier, m :: earlier <:+ moments → m.event.applied?.isSome →
    m.depth = 0 ∨ Taken script earlier

variable {script : List Moment → List Call} {before since : List Moment} {m : Moment} {g : Gate}

/-- Once the driver took hold of the schedule, it did so for good. -/
theorem Taken.cons (h : Taken script since) (m : Moment) : Taken script (m :: since) := by
  obtain ⟨⟨x, hx, hacquired⟩, htakes⟩ := h
  exact ⟨⟨x, List.mem_cons_of_mem _ hx, hacquired⟩, htakes⟩

/-- Before anything happened there is nothing to excuse. -/
theorem excused_nil : Excused script [] := by
  intro m earlier hsuffix
  cases List.eq_nil_of_suffix_nil hsuffix

/-- One moment more needs an excuse only if a request is applied in it. -/
theorem Excused.cons (h : Excused script since)
    (hm : m.event.applied?.isSome → m.depth = 0 ∨ Taken script since) :
    Excused script (m :: since) := by
  intro x earlier hsuffix happlied
  rcases List.suffix_cons_iff.1 hsuffix with heq | hsuffix
  · cases heq
    exact hm happlied
  · exact h x earlier hsuffix happlied

/-- If the driver never takes hold of the schedule, there is no excuse. -/
theorem Excused.depth_eq_zero (h : Excused script since)
    (hnever : ∀ past, Call.acquire ∉ script past) (hm : m ∈ since)
    (happlied : m.event.applied?.isSome) : m.depth = 0 := by
  obtain ⟨later, earlier, rfl⟩ := List.append_of_mem hm
  rcases h m earlier (List.suffix_append _ _) happlied with hdepth | ⟨-, past, htakes⟩
  · exact hdepth
  · exact absurd htakes (hnever past)

/-! ## All through a hand-over -/

/-- What holds in a hand-over by a driver with this script that began after the moments `before`. -/
structure HandingOver (script : List Moment → List Call) (before : List Moment) (g : Gate) :
    Prop where
  /-- The driver has the script. -/
  script_eq : g.driver.script = script
  /-- Since then requests were applied as they may be, and if the schedule is held, the driver took
  hold of it. -/
  exists_since : ∃ since, g.journal = since ++ before ∧ Excused script since ∧
    (g.depth = 0 ∨ Taken script since)

namespace HandingOver

/-- One more moment: what is applied in it is applied at the depth there was, and the depth rises
only if the driver takes hold. -/
theorem cons (h : HandingOver script before g) {g' : Gate}
    (hscript : g'.driver.script = g.driver.script) (hjournal : g'.journal = m :: g.journal)
    (happlied : m.event.applied?.isSome → m.depth = g.depth)
    (hheld : (g.depth = 0 → g'.depth = 0) ∨
      m.event = .acquired ∧ ∃ past, Call.acquire ∈ script past) :
    HandingOver script before g' := by
  obtain ⟨since, hsince, hexcused, hdepth⟩ := h.exists_since
  refine ⟨hscript.trans h.script_eq, m :: since, ?_, hexcused.cons fun hm => ?_, ?_⟩
  · rw [hjournal, hsince, List.cons_append]
  · rw [happlied hm]
    exact hdepth
  · rcases hheld with hkeeps | ⟨hacquired, htakes⟩
    · exact hdepth.imp hkeeps (·.cons m)
    · exact .inr ⟨⟨m, List.mem_cons_self, hacquired⟩, htakes⟩

/-- A moment in which no request is applied and the depth does not rise. -/
theorem note (h : HandingOver script before g) {e : Event} (he : e.applied? = none)
    {depth : UInt32} (hdepth : g.depth = 0 → depth = 0) (pending : List RadioRequest) :
    HandingOver script before ({ g with depth, pending }.note e) := by
  refine h.cons (m := ⟨e, depth, pending⟩) rfl rfl (fun happlied => ?_) (.inl hdepth)
  rw [he] at happlied
  cases happlied

/-- The driver takes hold of the schedule, which its script says somewhere. -/
theorem acquire (h : HandingOver script before g) (htakes : ∃ past, Call.acquire ∈ script past) :
    HandingOver script before g.acquire :=
  h.cons (m := ⟨.acquired, g.acquire.depth, g.pending⟩) rfl rfl nofun (.inr ⟨rfl, htakes⟩)

/-- A call that the script says somewhere keeps the excuses. -/
theorem nestedCall (h : HandingOver script before g) {c : Call} {past : List Moment}
    (hc : c ∈ script past) : HandingOver script before (g.nestedCall c) := by
  cases c with
  | request r =>
    rw [nestedCall_request]
    exact h.note rfl id _
  | acquire => exact h.acquire ⟨past, hc⟩
  | release =>
    rw [nestedCall_release]
    split
    · exact h
    · rename_i hheld
      exact h.note rfl (fun hfree => absurd hfree hheld) _

/-- So do several of them. -/
theorem foldl_nestedCall (h : HandingOver script before g) {calls : List Call} {past : List Moment}
    (hcalls : ∀ c ∈ calls, c ∈ script past) :
    HandingOver script before (calls.foldl Gate.nestedCall g) := by
  induction calls generalizing g with
  | nil => exact h
  | cons c calls ih =>
    obtain ⟨hc, hcalls⟩ := List.forall_mem_cons.1 hcalls
    exact ih (h.nestedCall hc) hcalls

/-- The driver reacts with calls of its script. -/
theorem react (h : HandingOver script before g) : HandingOver script before g.react := by
  have hspent : HandingOver script before (g.spend g.reaction.length) :=
    ⟨h.script_eq, h.exists_since⟩
  have hcalls : ∀ c ∈ g.reaction, c ∈ script g.journal := by
    intro c hc
    rw [← h.script_eq]
    exact List.mem_of_mem_take hc
  exact hspent.foldl_nestedCall hcalls

/-- The request is applied while the schedule is free or after the driver took hold of it. -/
theorem apply (h : HandingOver script before g) (r : RadioRequest) (rest : List RadioRequest) :
    HandingOver script before (g.apply r rest) := by
  apply react
  exact h.cons (m := ⟨.applied r, g.depth, rest⟩) rfl rfl (fun _ => rfl) (.inl id)

/-- The induction is along the hand-over: each round of it applies one request. -/
theorem drain (h : HandingOver script before g) : HandingOver script before g.drain := by
  induction g using Gate.drain.induct with
  | case1 g hpending => rwa [drain_of_nil hpending]
  | case2 g r rest hpending ih =>
    rw [drain_of_cons hpending]
    exact ih (h.apply r rest)

end HandingOver

/-- A hand-over begins after a moment in which nothing is applied and which leaves the schedule
free. -/
theorem handingOver_of_free {e : Event} (he : e.applied? = none) (hfree : g.depth = 0) :
    HandingOver g.driver.script g.journal (g.note e) := by
  refine ⟨rfl, [⟨e, g.depth, g.pending⟩], rfl, ?_, .inl hfree⟩
  apply excused_nil.cons
  intro happlied
  rw [he] at happlied
  cases happlied

/-! ## Calls from outside -/

/-- What is not held has depth zero. -/
theorem depth_eq_zero_of_not_isHeld (h : ¬g.isHeld = true) : g.depth = 0 := by
  unfold isHeld at h
  rw [decide_eq_true_eq, UInt32.not_lt] at h
  exact UInt32.le_zero_iff.1 h

/-- What a call from outside adds to the journal, where requests are applied as they may be. -/
theorem excused_call (g : Gate) (c : Call) :
    (g.call c).driver.script = g.driver.script ∧
      ∃ since, (g.call c).journal = since ++ g.journal ∧ Excused g.driver.script since := by
  have hnote (e : Event) (he : e.applied? = none) (depth : UInt32) (pending : List RadioRequest) :
      ∃ since, ({ g with depth, pending }.note e).journal = since ++ g.journal ∧
        Excused g.driver.script since := by
    refine ⟨[⟨e, depth, pending⟩], rfl, excused_nil.cons fun happlied => ?_⟩
    rw [he] at happlied
    cases happlied
  cases c with
  | request r =>
    unfold call callWith
    simp only
    split
    · exact ⟨rfl, hnote _ rfl _ _⟩
    · rename_i hfree
      have hdepth : g.depth = 0 := depth_eq_zero_of_not_isHeld hfree
      have hover : HandingOver g.driver.script g.journal (g.enqueue r).drain :=
        HandingOver.drain
          (handingOver_of_free (g := { g with pending := g.pending ++ [r] }) rfl hdepth)
      obtain ⟨since, hjournal, hexcused, -⟩ := hover.exists_since
      exact ⟨hover.script_eq, since, hjournal, hexcused⟩
  | acquire => exact ⟨rfl, hnote _ rfl _ _⟩
  | release =>
    unfold call callWith
    simp only
    split
    · exact ⟨rfl, [], rfl, excused_nil⟩
    · split
      · rename_i hone
        have hover : HandingOver g.driver.script g.journal g.lower.drain := by
          apply HandingOver.drain
          apply handingOver_of_free (g := { g with depth := g.depth - 1 }) rfl
          show g.depth - 1 = 0
          rw [hone]
          rfl
        obtain ⟨since, hjournal, hexcused, -⟩ := hover.exists_since
        exact ⟨hover.script_eq, since, hjournal, hexcused⟩
      · exact ⟨rfl, hnote _ rfl _ _⟩

/-! ## Whole runs -/

/-- A run does not change what the driver's script says. -/
theorem script_run (calls : List Call) (g : Gate) :
    (g.run calls).driver.script = g.driver.script := by
  induction calls generalizing g with
  | nil => rfl
  | cons c calls ih => exact (ih (g.call c)).trans (excused_call g c).1

/-- A driver that never takes hold of the schedule gets requests only when nobody holds it. -/
theorem depth_eq_zero_of_run (hnever : ∀ past, Call.acquire ∉ g.driver.script past)
    (hfree : ∀ m ∈ g.journal, m.event.applied?.isSome → m.depth = 0) (calls : List Call) :
    ∀ m ∈ (g.run calls).journal, m.event.applied?.isSome → m.depth = 0 := by
  induction calls generalizing g with
  | nil => exact hfree
  | cons c calls ih =>
    obtain ⟨hscript, since, hjournal, hexcused⟩ := excused_call g c
    apply ih
    · rwa [hscript]
    · intro m hm happlied
      rw [hjournal] at hm
      rcases List.mem_append.1 hm with hm | hm
      · exact hexcused.depth_eq_zero hnever hm happlied
      · exact hfree m hm happlied

/-- **When the radio acts on a held schedule.**  For every driver and every run of calls from
outside: where a call hands a request to the radio while the schedule is held, the driver took hold
of the schedule earlier in the same hand-over; and a driver that never takes hold of it gets each
request when nobody holds it. -/
theorem applied_unheld_or_taken (d : Driver) (calls : List Call) :
    (∀ c, ∃ since,
        (((ofDriver d).run calls).call c).journal = since ++ ((ofDriver d).run calls).journal ∧
          ∀ m earlier, m :: earlier <:+ since → m.event.applied?.isSome → m.depth = 0 ∨
            (∃ x ∈ earlier, x.event = .acquired) ∧ ∃ past, Call.acquire ∈ d.script past) ∧
      ((∀ past, Call.acquire ∉ d.script past) →
        ∀ m ∈ ((ofDriver d).run calls).journal, m.event.applied?.isSome → m.depth = 0) := by
  constructor
  · intro c
    obtain ⟨-, since, hjournal, hexcused⟩ := excused_call ((ofDriver d).run calls) c
    rw [script_run] at hexcused
    exact ⟨since, hjournal, hexcused⟩
  · intro hnever
    exact depth_eq_zero_of_run (g := ofDriver d) hnever nofun calls

/-! ## A driver that takes hold -/

/-- The driver that takes hold of the schedule when the radio is first switched on. -/
def seizing : Driver :=
  .repeating (fun r => match r with
    | .on => [.acquire]
    | .off => []) 1

/-- It is switched off while it holds the schedule, in the hand-over in which it was switched on:
it is not so that requests are applied only while nobody holds the schedule. -/
theorem applied_while_held :
    ¬∀ (d : Driver) (calls : List Call), ∀ m ∈ ((ofDriver d).run calls).journal,
      m.event.applied?.isSome → m.depth = 0 := by
  intro h
  have hmem : (⟨.applied .off, 1, []⟩ : Moment) ∈
      ((ofDriver seizing).run [.acquire, .request .on, .request .off, .release]).journal := by
    decide +kernel
  exact absurd (h _ _ _ hmem rfl) (by decide)

end SlottedMesh.Gate

import SlottedMesh.Proofs.Radio.Order

/-!
# What a driver asks for while a request is applied

The requests that arrive at a gate are those of the calls that are made, in the order in which they
are made: of each call from outside its own request first, and then, as one request after another is
applied, those that the driver's script asks for there.

* `Driver.answer` says which requests a driver makes at a moment, and `Driver.answers` at all
  moments of a stretch.  Both are read off the script and the budget, whatever the gate does with
  the calls.
* `Answering` is what holds all through a call from outside.  It carries the calls that the driver
  has begun to make and not yet made: `Answering.callWith` takes one of them, `Answering.apply` adds
  those that a request sets off, and `Answering.drain` goes on to the end of the hand-over.
* `Answering.answered` says that the requests of an answer arrive next after the moment that is
  answered.
* The main statement is `requests_applied_in_order`.
-/

namespace SlottedMesh.Gate

/-! ## Answers -/

namespace Driver

/-- How many calls a driver has left after these moments.  Where a request is applied, it makes
those of its script, or as many of them as it has left. -/
def left (d : Driver) : List Moment → Nat
  | [] => d.budget
  | m :: past =>
    if m.event.applied?.isSome then d.left past - (d.script (m :: past)).length else d.left past

/-- The requests that a driver makes at the latest of these moments: those of its script that it can
still make, if a request is applied there, and otherwise none. -/
def answer (d : Driver) : List Moment → List RadioRequest
  | [] => []
  | m :: past =>
    if m.event.applied?.isSome then
      ((d.script (m :: past)).take (d.left past)).filterMap Call.request?
    else []

/-- The requests that a driver makes at the moments `since`, of which the latest is the first of the
list and which come after the moments `before`. -/
def answers (d : Driver) (before : List Moment) : List Moment → List RadioRequest
  | [] => []
  | m :: since => d.answers before since ++ d.answer (m :: (since ++ before))

variable {d : Driver} {m : Moment} {past : List Moment}

/-- Where a request is applied, the calls of the script are taken from those that are left. -/
theorem left_of_applied (h : m.event.applied?.isSome) :
    d.left (m :: past) = d.left past - (d.script (m :: past)).length := if_pos h

/-- Elsewhere the driver makes no calls. -/
theorem left_of_not_applied (h : m.event.applied? = none) : d.left (m :: past) = d.left past := by
  rw [left, h]
  rfl

/-- Where a request is applied, the answer is what the script asks for. -/
theorem answer_of_applied (h : m.event.applied?.isSome) :
    d.answer (m :: past) =
      ((d.script (m :: past)).take (d.left past)).filterMap Call.request? := if_pos h

/-- Elsewhere there is no answer. -/
theorem answer_of_not_applied (h : m.event.applied? = none) : d.answer (m :: past) = [] := by
  rw [answer, h]
  rfl

/-- The answers of a stretch are those of its beginning, and then those of the rest. -/
theorem answers_append (d : Driver) (before since later : List Moment) :
    d.answers before (later ++ since) =
      d.answers before since ++ d.answers (since ++ before) later := by
  induction later with
  | nil => exact (List.append_nil _).symm
  | cons m later ih =>
    rw [List.cons_append, answers, ih, answers, List.append_assoc, List.append_assoc]

end Driver

/-! ## All through a call -/

/-- Before each request that was applied in these moments, all had arrived that the call itself and
the driver had asked for until then. -/
def Punctual (d : Driver) (before : List Moment) (own : List RadioRequest) (since : List Moment) :
    Prop :=
  ∀ m earlier, m :: earlier <:+ since → m.event.applied?.isSome →
    issuedIn earlier = own ++ d.answers before earlier

/-- What holds in a call that asks for `own` and began after the moments `before`, while the calls
`todo` are still to be made. -/
structure Answering (d : Driver) (before : List Moment) (own : List RadioRequest)
    (todo : List Call) (g : Gate) : Prop where
  /-- The driver has its script, and the calls that its answers left. -/
  driver_eq : g.driver = ⟨d.script, d.left g.journal⟩
  /-- What arrived since then, with what is still to be made, is what was asked for. -/
  exists_since : ∃ since, g.journal = since ++ before ∧ Punctual d before own since ∧
    issuedIn since ++ todo.filterMap Call.request? = own ++ d.answers before since

variable {d : Driver} {before : List Moment} {own : List RadioRequest} {c : Call}
  {todo : List Call} {g g' : Gate} {m : Moment}

/-- A call begins with itself to be made. -/
theorem answering_self (h : g.driver = ⟨d.script, d.left g.journal⟩) (c : Call) :
    Answering d g.journal c.request?.toList [c] g := by
  refine ⟨h, [], rfl, ?_, ?_⟩
  · intro m earlier hsuffix
    cases List.eq_nil_of_suffix_nil hsuffix
  · cases hc : c.request? with
    | none => simp [issuedIn, Driver.answers, hc]
    | some r => simp [issuedIn, Driver.answers, hc]

namespace Answering

/-- A moment that is not that of a request being applied does not disturb the punctuality. -/
theorem punctual_cons {since : List Moment} (h : Punctual d before own since)
    (hm : m.event.applied?.isSome → issuedIn since = own ++ d.answers before since) :
    Punctual d before own (m :: since) := by
  intro x earlier hsuffix happlied
  rcases List.suffix_cons_iff.1 hsuffix with heq | hsuffix
  · cases heq
    exact hm happlied
  · exact h x earlier hsuffix happlied

/-- One call is made: its request, if it is one, arrives in the moment that it adds. -/
theorem cons (h : Answering d before own (c :: todo) g) (hdriver : g'.driver = g.driver)
    (hjournal : g'.journal = m :: g.journal) (happlied : m.event.applied? = none)
    (hissued : m.event.issued? = c.request?) : Answering d before own todo g' := by
  obtain ⟨since, hsince, hpunctual, harrived⟩ := h.exists_since
  refine ⟨?_, m :: since, ?_, punctual_cons hpunctual fun hm => ?_, ?_⟩
  · rw [hdriver, h.driver_eq, hjournal, Driver.left_of_not_applied happlied]
  · rw [hjournal, hsince, List.cons_append]
  · rw [happlied] at hm
    cases hm
  · rw [filterMap_request?_cons] at harrived
    rw [issuedIn_cons, hissued, List.append_assoc, harrived, Driver.answers,
      Driver.answer_of_not_applied happlied, List.append_nil]

/-- A call that asks for nothing may also add no moment. -/
theorem skip (h : Answering d before own (c :: todo) g) (hc : c.request? = none) :
    Answering d before own todo g := by
  obtain ⟨since, hsince, hpunctual, harrived⟩ := h.exists_since
  rw [filterMap_request?_cons, hc, Option.toList_none, List.nil_append] at harrived
  exact ⟨h.driver_eq, since, hsince, hpunctual, harrived⟩

/-- A call is made, whatever becomes of the queue in the end. -/
theorem callWith {handOver : Gate → Gate}
    (hhandOver : ∀ g, Answering d before own todo g → Answering d before own todo (handOver g))
    (h : Answering d before own (c :: todo) g) :
    Answering d before own todo (g.callWith handOver c) := by
  cases c with
  | request r =>
    have henqueue : Answering d before own todo (g.enqueue r) :=
      h.cons (m := ⟨.issued r, g.depth, g.pending ++ [r]⟩) rfl rfl rfl rfl
    unfold Gate.callWith
    simp only
    split
    · exact henqueue
    · exact hhandOver _ henqueue
  | acquire => exact h.cons (m := ⟨.acquired, g.acquire.depth, g.pending⟩) rfl rfl rfl rfl
  | release =>
    have hlower : Answering d before own todo g.lower :=
      h.cons (m := ⟨.released, g.depth - 1, g.pending⟩) rfl rfl rfl rfl
    unfold Gate.callWith
    simp only
    split
    · exact h.skip rfl
    · split
      · exact hhandOver _ hlower
      · exact hlower

/-- The calls that are to be made are made, one after another. -/
theorem foldl_nestedCall (h : Answering d before own todo g) :
    Answering d before own [] (todo.foldl nestedCall g) := by
  induction todo generalizing g with
  | nil => exact h
  | cons c todo ih => exact ih (h.callWith fun _ hg => hg)

/-- A request is applied when nothing is left to be made, and the driver makes what its script asks
for. -/
theorem apply (h : Answering d before own [] g) (r : RadioRequest) (rest : List RadioRequest) :
    Answering d before own [] (g.apply r rest) := by
  obtain ⟨since, hsince, hpunctual, harrived⟩ := h.exists_since
  rw [List.filterMap_nil, List.append_nil] at harrived
  let m : Moment := ⟨.applied r, g.depth, rest⟩
  let g' : Gate := { g with pending := rest }.note (.applied r)
  have hjournal : g'.journal = m :: g.journal := rfl
  have hreaction : g'.reaction = (d.script (m :: g.journal)).take (d.left g.journal) := by
    show (g.driver.script (m :: g.journal)).take g.driver.budget = _
    rw [h.driver_eq]
  have hleft : (g'.spend g'.reaction.length).driver =
      ⟨d.script, d.left (g'.spend g'.reaction.length).journal⟩ := by
    show (⟨g.driver.script, g.driver.budget - g'.reaction.length⟩ : Driver) =
      ⟨d.script, d.left (m :: g.journal)⟩
    rw [hreaction, h.driver_eq, Driver.left_of_applied rfl, List.length_take]
    exact congrArg (Driver.mk d.script) (Nat.sub_eq_sub_min _ _).symm
  have hmade : Answering d before own g'.reaction (g'.spend g'.reaction.length) := by
    refine ⟨hleft, m :: since, ?_, punctual_cons hpunctual fun _ => harrived, ?_⟩
    · show m :: g.journal = m :: since ++ before
      rw [hsince, List.cons_append]
    · rw [issuedIn_cons, Driver.answers, Driver.answer_of_applied rfl, ← hsince, ← hreaction,
        harrived]
      exact congrArg (· ++ _) (List.append_nil _) |>.trans (List.append_assoc _ _ _)
  exact hmade.foldl_nestedCall

/-- The induction is along the hand-over: each round of it applies one request. -/
theorem drain (h : Answering d before own [] g) : Answering d before own [] g.drain := by
  induction g using Gate.drain.induct with
  | case1 g hpending => rwa [drain_of_nil hpending]
  | case2 g r rest hpending ih =>
    rw [drain_of_cons hpending]
    exact ih (h.apply r rest)

end Answering

/-- A call from outside is made with all that it sets off. -/
theorem answering_call (h : g.driver = ⟨d.script, d.left g.journal⟩) (c : Call) :
    Answering d g.journal c.request?.toList [] (g.call c) :=
  (answering_self h c).callWith fun _ hg => hg.drain

/-! ## The next to arrive -/

/-- After each moment at which a request was applied, the requests of the driver's answer are the
next to arrive. -/
def Answered (d : Driver) (moments : List Moment) : Prop :=
  ∀ later m past, moments = later ++ m :: past → m.event.applied?.isSome →
    d.answer (m :: past) <+: issuedIn later

/-- No request arrives in the moment in which one is applied. -/
theorem issued?_of_applied? {e : Event} (h : e.applied?.isSome) : e.issued? = none := by
  cases e <;> simp_all [Event.applied?, Event.issued?]

/-- What arrives after a moment of the call is what was asked for from then on. -/
theorem Answering.answered (h : Answering d before own [] g) (hbefore : Answered d before) :
    Answered d g.journal := by
  obtain ⟨since, hsince, hpunctual, harrived⟩ := h.exists_since
  rw [List.filterMap_nil, List.append_nil] at harrived
  intro later m past hsplit happlied
  rw [hsince] at hsplit
  -- the moment came before the call, or in it
  rcases List.append_eq_append_iff.1 hsplit with
    ⟨mid, rfl, hmid⟩ | ⟨_ | ⟨m', earlier⟩, heq, hpast⟩
  · rw [issuedIn_append]
    exact (hbefore mid m past hmid happlied).trans (List.prefix_append _ _)
  · exact (hbefore [] m past hpast.symm happlied).trans (List.nil_prefix)
  · obtain ⟨rfl, rfl⟩ := List.cons.inj hpast
    have hearlier := hpunctual m earlier (heq ▸ List.suffix_append _ _) happlied
    rw [heq, issuedIn_append, issuedIn_cons, issued?_of_applied? happlied, Option.toList_none,
      List.append_nil, hearlier, Driver.answers_append, Driver.answers, List.append_assoc,
      List.append_assoc, List.append_cancel_left_eq, List.append_cancel_left_eq] at harrived
    rw [harrived]
    exact List.prefix_append _ _

/-! ## Whole runs -/

/-- A run keeps what is left of the driver, and all that it asks for arrives next. -/
theorem answered_run (calls : List Call) (hdriver : g.driver = ⟨d.script, d.left g.journal⟩)
    (h : Answered d g.journal) :
    (g.run calls).driver = ⟨d.script, d.left (g.run calls).journal⟩ ∧
      Answered d (g.run calls).journal := by
  induction calls generalizing g with
  | nil => exact ⟨hdriver, h⟩
  | cons c calls ih =>
    have hcall := answering_call hdriver c
    exact ih hcall.driver_eq (hcall.answered h)

/-- **Requests are never lost, applied twice or reordered.**  For every driver and every run of
calls from outside: at each moment, also while a request is being applied, the requests that have
arrived are those that the radio got, followed by those that wait; the requests made from outside
arrive in the order in which they are made, and those that arrive beside them are no more than the
calls that the driver had.  Those that the driver's script asks for while a request is applied are
the next to arrive; and what arrives in a further call from outside is the call's own request, if it
makes one, and then all that the driver asks for in the course of it, in this order, and nothing
else.  Once the schedule is held no more, all that has arrived was applied, in the order of
arrival. -/
theorem requests_applied_in_order (d : Driver) (calls : List Call) :
    let g := (ofDriver d).run calls
    (∀ past, past <:+ g.journal → issuedIn past = appliedIn past ++ pendingIn past) ∧
      g.issued = g.applied ++ g.pending ∧
      (calls.filterMap Call.request?).Sublist g.issued ∧
      g.issued.length ≤ (calls.filterMap Call.request?).length + d.budget ∧
      (∀ later m past, g.journal = later ++ m :: past → m.event.applied?.isSome →
        d.answer (m :: past) <+: issuedIn later) ∧
      (∀ c, ∃ since, (g.call c).journal = since ++ g.journal ∧
        issuedIn since = c.request?.toList ++ d.answers g.journal since) ∧
      (g.depth = 0 → g.pending = [] ∧ g.applied = g.issued) := by
  intro g
  have horder : g.InOrder := (inOrder_ofDriver d).run calls
  have hsettled : g.IsSettled := IsSettled.run (fun _ => rfl) calls
  obtain ⟨hdriver, hanswered⟩ : g.driver = ⟨d.script, d.left g.journal⟩ ∧ Answered d g.journal :=
    answered_run calls rfl fun later _ _ hsplit => by cases later <;> cases hsplit
  refine ⟨horder.accounted, horder.issued_eq, ?_, ?_, hanswered, fun c => ?_, ?_⟩
  · have hsublist := request_sublist_issued_run calls (ofDriver d)
    rwa [show (ofDriver d).issued = [] from rfl, List.nil_append] at hsublist
  · have hlength : g.issued.length + g.driver.budget ≤ 0 + d.budget + _ :=
      length_issued_run_le calls (ofDriver d)
    omega
  · obtain ⟨since, hsince, -, harrived⟩ := (answering_call hdriver c).exists_since
    rw [List.filterMap_nil, List.append_nil] at harrived
    exact ⟨since, hsince, harrived⟩
  · intro hdepth
    have hpending := hsettled hdepth
    refine ⟨hpending, ?_⟩
    rw [horder.issued_eq, hpending, List.append_nil]

/-- The driver that asks to be switched on each time it is switched off, twice in all. -/
def echoing : Driver where
  script
    | ⟨.applied .off, _, _⟩ :: _ => [.request .on]
    | _ => []
  budget := 2

/-- What it asks for comes after what already waits. -/
example : ((ofDriver echoing).run
    [.acquire, .request .off, .request .off, .release]).applied = [.off, .off, .on, .on] := by
  decide +kernel

end SlottedMesh.Gate

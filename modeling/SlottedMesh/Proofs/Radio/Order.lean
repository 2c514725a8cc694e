import Mathlib.Data.List.Basic
import SlottedMesh.Radio.Gate

/-!
# Requests reach the radio in order

Whatever the radio's driver calls while a request is being applied, no request is lost, handed over
twice or overtaken by another.

* `Accounted` says of a run of moments that at each of them the requests that have arrived are those
  that the radio got, followed by those that wait.  Each primitive of the gate adds one moment that
  keeps the account (`accounted_cons`), so the account is kept by a nested call, by a request that
  is applied with all that it sets off, by a hand-over and by a call from outside (`InOrder.call`).
* A hand-over leaves nothing behind (`pending_drain`), so after a call from outside requests wait
  only while the schedule is held (`IsSettled.call`).
* The driver has only so many calls, and each request that it makes is paid for by one of them
  (`length_issued_call_le`); so no more requests arrive than were made from outside and are paid
  for.
-/

namespace SlottedMesh.Gate

/-- The request that a call makes. -/
def Call.request? : Call → Option RadioRequest
  | .request r => some r
  | _ => none

/-- At each of these moments, the requests that have arrived are those that the radio got, followed
by those that wait. -/
def Accounted (moments : List Moment) : Prop :=
  ∀ past, past <:+ moments → issuedIn past = appliedIn past ++ pendingIn past

/-- The account is kept at every moment of the gate, and the latest moment shows its queue. -/
structure InOrder (g : Gate) : Prop where
  /-- The account is kept at every moment. -/
  accounted : Accounted g.journal
  /-- The latest moment shows the queue. -/
  pendingIn_journal : pendingIn g.journal = g.pending

/-- Where nobody holds the schedule, no request waits. -/
def IsSettled (g : Gate) : Prop := g.depth = 0 → g.pending = []

/-! ## Rounds of a hand-over -/

/-- With nothing waiting, there is nothing to hand over. -/
theorem drain_of_nil {g : Gate} (h : g.pending = []) : g.drain = g := by
  rw [drain]
  split
  · rfl
  · simp_all

/-- A round of a hand-over applies the oldest request. -/
theorem drain_of_cons {g : Gate} {r : RadioRequest} {rest : List RadioRequest}
    (h : g.pending = r :: rest) : g.drain = (g.apply r rest).drain := by
  rw [drain]
  split <;> simp_all

/-! ## One moment more -/

/-- In one moment more, one request more arrives or none. -/
theorem issuedIn_cons (m : Moment) (past : List Moment) :
    issuedIn (m :: past) = issuedIn past ++ m.event.issued?.toList := by
  unfold issuedIn
  rw [List.reverse_cons, List.filterMap_append]
  cases h : m.event.issued? <;> simp [h]

/-- In one moment more, the radio gets one request more or none. -/
theorem appliedIn_cons (m : Moment) (past : List Moment) :
    appliedIn (m :: past) = appliedIn past ++ m.event.applied?.toList := by
  unfold appliedIn
  rw [List.reverse_cons, List.filterMap_append]
  cases h : m.event.applied? <;> simp [h]

/-- What is noted arrives last. -/
theorem issued_note (g : Gate) (e : Event) : (g.note e).issued = g.issued ++ e.issued?.toList :=
  issuedIn_cons _ _

/-- If the account is right in one moment more, it is kept. -/
theorem accounted_cons {m : Moment} {past : List Moment} (hpast : Accounted past)
    (hm : issuedIn (m :: past) = appliedIn (m :: past) ++ m.pending) : Accounted (m :: past) := by
  intro earlier hearlier
  rcases List.suffix_cons_iff.1 hearlier with rfl | hearlier
  · exact hm
  · exact hpast earlier hearlier

namespace InOrder

variable {g : Gate}

/-- What has arrived is what the radio got and what waits. -/
theorem issued_eq (h : g.InOrder) : g.issued = g.applied ++ g.pending := by
  have hnow := h.accounted g.journal (List.suffix_refl _)
  rwa [h.pendingIn_journal] at hnow

/-- What happens to neither requests nor queue keeps the account. -/
theorem note (h : g.InOrder) {e : Event} (hissued : e.issued? = none) (happlied : e.applied? = none)
    (depth : UInt32) : ({ g with depth }.note e).InOrder := by
  refine ⟨accounted_cons h.accounted ?_, rfl⟩
  rw [issuedIn_cons, appliedIn_cons, hissued, happlied]
  show g.issued ++ [] = g.applied ++ [] ++ g.pending
  rw [h.issued_eq, List.append_nil, List.append_nil]

/-- To take hold of the schedule keeps the account. -/
theorem acquire (h : g.InOrder) : g.acquire.InOrder := h.note rfl rfl _

/-- To let go of the schedule keeps the account. -/
theorem lower (h : g.InOrder) : g.lower.InOrder := h.note rfl rfl _

/-- A request that arrives goes to the end of what has arrived and of what waits. -/
theorem enqueue (h : g.InOrder) (r : RadioRequest) : (g.enqueue r).InOrder := by
  refine ⟨accounted_cons h.accounted ?_, rfl⟩
  rw [issuedIn_cons, appliedIn_cons]
  show g.issued ++ [r] = g.applied ++ [] ++ (g.pending ++ [r])
  rw [h.issued_eq, List.append_nil, List.append_assoc]

/-- A call keeps the account if what it does with the queue keeps it. -/
theorem callWith (h : g.InOrder) {handOver : Gate → Gate}
    (hhandOver : ∀ g : Gate, g.InOrder → (handOver g).InOrder) (c : Call) :
    (g.callWith handOver c).InOrder := by
  cases c with
  | request r =>
    unfold Gate.callWith
    simp only
    split
    · exact h.enqueue r
    · exact hhandOver _ (h.enqueue r)
  | acquire => exact h.acquire
  | release =>
    unfold Gate.callWith
    simp only
    split
    · exact h
    · split
      · exact hhandOver _ h.lower
      · exact h.lower

/-- The calls of a driver keep the account. -/
theorem foldl_nestedCall (h : g.InOrder) (calls : List Call) :
    (calls.foldl nestedCall g).InOrder := by
  induction calls generalizing g with
  | nil => exact h
  | cons c calls ih => exact ih (h.callWith (fun _ hg => hg) c)

/-- What the driver has left is no part of the account. -/
theorem spend (h : g.InOrder) (calls : Nat) : (g.spend calls).InOrder :=
  ⟨h.accounted, h.pendingIn_journal⟩

/-- What the driver does when a request is applied keeps the account. -/
theorem react (h : g.InOrder) : g.react.InOrder := (h.spend _).foldl_nestedCall _

/-- The request that is applied is the oldest of those that waited. -/
theorem apply (h : g.InOrder) {r : RadioRequest} {rest : List RadioRequest}
    (hpending : g.pending = r :: rest) : (g.apply r rest).InOrder := by
  refine react ⟨accounted_cons h.accounted ?_, rfl⟩
  rw [issuedIn_cons, appliedIn_cons]
  show g.issued ++ [] = g.applied ++ [r] ++ rest
  rw [h.issued_eq, hpending, List.append_nil, List.append_assoc]
  rfl

/-- The induction is along the hand-over: each round of it applies one request. -/
theorem drain (h : g.InOrder) : g.drain.InOrder := by
  induction g using Gate.drain.induct with
  | case1 g hpending => rwa [drain_of_nil hpending]
  | case2 g r rest hpending ih =>
    rw [drain_of_cons hpending]
    exact ih (h.apply hpending)

/-- A call from outside keeps the account. -/
theorem call (h : g.InOrder) (c : Call) : (g.call c).InOrder := h.callWith (fun _ hg => hg.drain) c

end InOrder

/-- Where nothing happened yet, the account is right. -/
theorem inOrder_ofDriver (d : Driver) : (ofDriver d).InOrder := by
  refine ⟨fun past hpast => ?_, rfl⟩
  rw [List.eq_nil_of_suffix_nil hpast]
  rfl

/-! ## Nothing is left behind -/

/-- After a hand-over nothing waits. -/
theorem pending_drain (g : Gate) : g.drain.pending = [] := by
  induction g using drain.induct with
  | case1 g hpending => rwa [drain_of_nil hpending]
  | case2 g r rest hpending ih => rwa [drain_of_cons hpending]

/-- A schedule that was taken hold of is held, also where the count cannot go up. -/
theorem depth_acquire_ne_zero (g : Gate) : g.acquire.depth ≠ 0 := by
  show (if g.depth = 0xFFFFFFFF then g.depth else g.depth + 1) ≠ 0
  split
  · rename_i hmax
    rw [hmax]
    decide
  · rename_i hmax
    have hlt := g.depth.toNat_lt
    simp only [ne_eq, ← UInt32.toNat_inj, UInt32.toNat_add, UInt32.reduceToNat] at hmax ⊢
    omega

/-- After a hand-over nothing waits, held or not. -/
theorem isSettled_drain (g : Gate) : g.drain.IsSettled := fun _ => pending_drain g

/-- After a call requests wait only while the schedule is held: as long as it is held they may, and
a call that finds it free or makes it free hands all of them over. -/
theorem IsSettled.call {g : Gate} (h : g.IsSettled) (c : Call) : (g.call c).IsSettled := by
  cases c with
  | request r =>
    unfold Gate.call callWith
    simp only
    split
    · rename_i hheld
      intro hdepth
      simp [isHeld, hdepth] at hheld
    · exact isSettled_drain _
  | acquire => exact fun hdepth => absurd hdepth (depth_acquire_ne_zero g)
  | release =>
    unfold Gate.call callWith
    simp only
    split
    · exact h
    · split
      · exact isSettled_drain _
      · rename_i hone
        intro hdepth
        have hsub : g.depth - 1 = 0 := hdepth
        refine absurd ?_ hone
        rw [← UInt32.sub_add_cancel g.depth 1, hsub, UInt32.zero_add]

/-! ## The journal only grows -/

/-- The journal only grows in a call if it does in what becomes of the queue. -/
theorem suffix_journal_callWith {handOver : Gate → Gate}
    (hhandOver : ∀ g : Gate, g.journal <:+ (handOver g).journal) (g : Gate) (c : Call) :
    g.journal <:+ (g.callWith handOver c).journal := by
  unfold callWith
  cases c with
  | request r =>
    have henqueue : g.journal <:+ (g.enqueue r).journal := List.suffix_cons _ _
    simp only
    split
    · exact henqueue
    · exact henqueue.trans (hhandOver _)
  | acquire => exact List.suffix_cons _ _
  | release =>
    have hlower : g.journal <:+ g.lower.journal := List.suffix_cons _ _
    simp only
    split
    · exact List.suffix_refl _
    · split
      · exact hlower.trans (hhandOver _)
      · exact hlower

/-- The journal only grows while the driver makes its calls, -/
theorem suffix_journal_foldl_nestedCall (calls : List Call) (g : Gate) :
    g.journal <:+ (calls.foldl nestedCall g).journal := by
  induction calls generalizing g with
  | nil => exact List.suffix_refl _
  | cons c calls ih =>
    exact (suffix_journal_callWith (fun _ => List.suffix_refl _) g c).trans (ih _)

/-- while it reacts, -/
theorem suffix_journal_react (g : Gate) : g.journal <:+ g.react.journal :=
  suffix_journal_foldl_nestedCall g.reaction (g.spend g.reaction.length)

/-- while a request is applied, -/
theorem suffix_journal_apply (g : Gate) (r : RadioRequest) (rest : List RadioRequest) :
    g.journal <:+ (g.apply r rest).journal := by
  have hnote : g.journal <:+ ({ g with pending := rest }.note (.applied r)).journal :=
    List.suffix_cons _ _
  exact hnote.trans (suffix_journal_react _)

/-- and while the queue is handed over. -/
theorem suffix_journal_drain (g : Gate) : g.journal <:+ g.drain.journal := by
  induction g using drain.induct with
  | case1 g hpending => exact (drain_of_nil hpending).symm ▸ List.suffix_refl g.journal
  | case2 g r rest hpending ih =>
    rw [drain_of_cons hpending]
    exact (suffix_journal_apply g r rest).trans ih

/-- What arrived in later moments comes after what had arrived. -/
theorem issuedIn_append (later past : List Moment) :
    issuedIn (later ++ past) = issuedIn past ++ issuedIn later := by
  unfold issuedIn
  rw [List.reverse_append, List.filterMap_append]

/-- What has arrived stays at the front of what arrives in the end. -/
theorem issuedIn_prefix {past moments : List Moment} (h : past <:+ moments) :
    issuedIn past <+: issuedIn moments := by
  obtain ⟨later, rfl⟩ := h
  rw [issuedIn_append]
  exact List.prefix_append _ _

/-- A call adds its requests at the end of those that had arrived. -/
theorem issued_prefix_call (g : Gate) (c : Call) : g.issued <+: (g.call c).issued :=
  issuedIn_prefix (suffix_journal_callWith suffix_journal_drain g c)

/-- A request that is made from outside arrives before all that it sets off. -/
theorem issued_append_prefix_call (g : Gate) (c : Call) :
    g.issued ++ c.request?.toList <+: (g.call c).issued := by
  cases c with
  | request r =>
    have henqueue : (g.enqueue r).issued = g.issued ++ [r] := issued_note _ _
    have hcall : (g.enqueue r).journal <:+ (g.call (.request r)).journal := by
      unfold call callWith
      simp only
      split
      · exact List.suffix_refl _
      · exact suffix_journal_drain _
    exact henqueue ▸ issuedIn_prefix hcall
  | acquire =>
    show g.issued ++ [] <+: _
    rw [List.append_nil]
    exact issued_prefix_call g _
  | release =>
    show g.issued ++ [] <+: _
    rw [List.append_nil]
    exact issued_prefix_call g _

/-! ## No hand-over goes on for ever -/

/-- A call of the driver makes one request at most. -/
theorem length_issued_nestedCall_le (g : Gate) (c : Call) :
    (g.nestedCall c).issued.length ≤ g.issued.length + 1 := by
  have hnote (g' : Gate) (e : Event) (hg' : g'.issued = g.issued) :
      (g'.note e).issued.length ≤ g.issued.length + 1 := by
    rw [issued_note, hg', List.length_append]
    exact Nat.add_le_add_left (Option.length_toList_le) _
  cases c with
  | request r => rw [nestedCall_request]; exact hnote _ _ rfl
  | acquire => exact hnote _ _ rfl
  | release =>
    rw [nestedCall_release]
    split
    · exact Nat.le_succ _
    · exact hnote _ _ rfl

/-- So many calls of the driver make so many requests at most. -/
theorem length_issued_foldl_nestedCall_le (calls : List Call) (g : Gate) :
    (calls.foldl nestedCall g).issued.length ≤ g.issued.length + calls.length := by
  induction calls generalizing g with
  | nil => exact Nat.le_refl _
  | cons c calls ih =>
    have hc := length_issued_nestedCall_le g c
    have hcalls := ih (g.nestedCall c)
    simp only [List.foldl_cons, List.length_cons]
    omega

/-- Each request that is made while one is applied takes a call from the driver's budget. -/
theorem length_issued_react_le (g : Gate) :
    g.react.issued.length + g.react.driver.budget ≤ g.issued.length + g.driver.budget := by
  have hreaction := length_reaction_le g
  have hbudget : g.react.driver.budget = g.driver.budget - g.reaction.length := by
    unfold react
    rw [driver_foldl_nestedCall]
    rfl
  have hissued : g.react.issued.length ≤ g.issued.length + g.reaction.length :=
    length_issued_foldl_nestedCall_le g.reaction (g.spend g.reaction.length)
  omega

/-- Each request of a hand-over takes a call from the driver's budget. -/
theorem length_issued_drain_le (g : Gate) :
    g.drain.issued.length + g.drain.driver.budget ≤ g.issued.length + g.driver.budget := by
  induction g using drain.induct with
  | case1 g hpending => exact Nat.le_of_eq (by rw [drain_of_nil hpending])
  | case2 g r rest hpending ih =>
    have happlied : ({ g with pending := rest }.note (.applied r)).issued = g.issued := by
      rw [issued_note]
      exact List.append_nil _
    have happly := length_issued_react_le ({ g with pending := rest }.note (.applied r))
    rw [happlied] at happly
    rw [drain_of_cons hpending]
    exact Nat.le_trans ih happly

/-- Of the requests that a call adds, one is its own and the driver pays for the others. -/
theorem length_issued_call_le (g : Gate) (c : Call) :
    (g.call c).issued.length + (g.call c).driver.budget
      ≤ g.issued.length + g.driver.budget + c.request?.toList.length := by
  cases c with
  | request r =>
    have henqueue : (g.enqueue r).issued = g.issued ++ [r] := issued_note _ _
    have hlength : (g.enqueue r).issued.length = g.issued.length + 1 := by
      rw [henqueue, List.length_append, List.length_singleton]
    have hdrain := length_issued_drain_le (g.enqueue r)
    have hbudget : (g.enqueue r).driver.budget = g.driver.budget := rfl
    simp only [call, callWith, Call.request?, Option.toList_some, List.length_singleton]
    split <;> omega
  | acquire =>
    have hacquire : g.acquire.issued = g.issued ++ [] := issued_note _ _
    rw [List.append_nil] at hacquire
    show g.acquire.issued.length + g.driver.budget ≤ _
    rw [hacquire]
    exact Nat.le_add_right _ _
  | release =>
    have hlower : g.lower.issued = g.issued ++ [] := issued_note _ _
    have hlength : g.lower.issued.length = g.issued.length := by rw [hlower, List.append_nil]
    have hdrain := length_issued_drain_le g.lower
    have hbudget : g.lower.driver.budget = g.driver.budget := rfl
    simp only [call, callWith, Call.request?, Option.toList_none, List.length_nil]
    split
    · omega
    · split <;> omega

/-! ## Whole runs -/

/-- A gate after a run of calls from outside the driver. -/
def run (g : Gate) (calls : List Call) : Gate := calls.foldl call g

/-- A run of calls keeps the account. -/
theorem InOrder.run {g : Gate} (h : g.InOrder) (calls : List Call) : (g.run calls).InOrder := by
  induction calls generalizing g with
  | nil => exact h
  | cons c calls ih => exact ih (h.call c)

/-- After a run of calls requests wait only while the schedule is held. -/
theorem IsSettled.run {g : Gate} (h : g.IsSettled) (calls : List Call) :
    (g.run calls).IsSettled := by
  induction calls generalizing g with
  | nil => exact h
  | cons c calls ih => exact ih (h.call c)

/-- The requests of a run are that of its first call, if it makes one, and those of the others. -/
theorem filterMap_request?_cons (c : Call) (calls : List Call) :
    (c :: calls).filterMap Call.request? =
      c.request?.toList ++ calls.filterMap Call.request? := by
  cases h : c.request? <;> simp [h]

/-- The requests that are made from outside arrive in the order in which they are made. -/
theorem request_sublist_issued_run (calls : List Call) (g : Gate) :
    (g.issued ++ calls.filterMap Call.request?).Sublist (g.run calls).issued := by
  induction calls generalizing g with
  | nil => simp [run]
  | cons c calls ih =>
    have hc := (issued_append_prefix_call g c).sublist.append_right (calls.filterMap Call.request?)
    rw [filterMap_request?_cons, ← List.append_assoc]
    exact hc.trans (ih (g.call c))

/-- Of the requests that a run adds, the driver pays for all that are not its own. -/
theorem length_issued_run_le (calls : List Call) (g : Gate) :
    (g.run calls).issued.length + (g.run calls).driver.budget
      ≤ g.issued.length + g.driver.budget + (calls.filterMap Call.request?).length := by
  induction calls generalizing g with
  | nil => exact Nat.le_refl _
  | cons c calls ih =>
    have hc := length_issued_call_le g c
    have hcalls : ((g.call c).run calls).issued.length + ((g.call c).run calls).driver.budget ≤ _ :=
      ih (g.call c)
    rw [filterMap_request?_cons, List.length_append]
    show ((g.call c).run calls).issued.length + ((g.call c).run calls).driver.budget ≤ _
    omega

end SlottedMesh.Gate

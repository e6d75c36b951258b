import EventCourier.Proofs.Broker.Path
import EventCourier.Proofs.Worker.Outcomes
import EventCourier.Proofs.Worker.Window

/-!
# Copies are resolved in the order in which they were published

The worker has deliveries ahead of it, the one in hand and those in its channel, and lets go of the first only
(`Stepped.ahead`). What is held of a queue is on its way to the worker in the order in which it was handed out
(`Lined`), and so the delivery in hand, if it is held, is the oldest of its queue. When nothing goes back, or when
nothing else is held because the window is one, the delivery that is resolved is due (`due_of_resolving`), and the
copies of every queue stay in line (`resolved_in_order`).
-/

namespace EventCourier

open Broker Connection

open scoped List

variable {ρ : Type} {router : Router (Sink ρ)} {config : WorkerConfig}

/-! ## Changes of the connection -/

section

variable {l : Option (Tag × Outcome)} {a a' : Option Attempt} {c c' : Connection Broker}
  {ps : List (String × Message)} {receiver : Nat}

/-- Every change of the connection keeps what is held on its way. -/
theorem along_change (hc : Change (Broker.api receiver) c c' l a a') (h : Agreed ps c a) {front : List Delivery}
    (hal : Along front c.broker) : Along front c'.broker := by
  rcases change_act h.steady hc with heq | ⟨x, hx, heq⟩ | ⟨ha, heq⟩
  · rw [heq]
    exact hal
  · rw [heq]
    exact along_run h.orderly hal hx.opens hx.forwards
  · subst ha
    have hsame := unmoved_openSession receiver c.generation c.notify c.broker
    rw [heq]
    exact along_of_held_nil (hsame.held.trans h.held_of_opening) front

/-- Every change of the connection keeps copies in line, if what it resolves is due. -/
theorem inLine_change (hc : Change (Broker.api receiver) c c' l a a') (h : Agreed ps c a)
    (hin : InLine c.broker ps)
    (hdue : ∀ k ∈ c.broker.held, ∀ outcome, l = some (k.tag, outcome) → Due c.broker k outcome) :
    InLine c'.broker ps := by
  rcases change_act h.steady hc with heq | ⟨x, hx, heq⟩ | ⟨-, heq⟩
  · rw [heq]
    exact hin
  · have hrun := inLine_run h.orderly hin hx.opens fun k hk outcome hxeq =>
      hdue k hk outcome (hx.resolves _ _ _ hxeq).2
    rw [hx.routes, List.append_nil] at hrun
    rw [heq]
    exact hrun
  · rw [heq]
    exact inLine_openSession hin receiver c.generation c.notify

/-- Only the session that the connection has holds anything, when no attempt is under way. -/
theorem Agreed.session_of_held (h : Agreed ps c none) {k : Held} (hk : k ∈ c.broker.held) :
    c.session = some k.tag.generation := by
  have hhand := h.live _ (h.orderly.live k hk)
  rwa [inHand_of_not_halfway rfl] at hhand

/-- A delivery that is not current is not held. -/
theorem Agreed.not_held_of_stale (h : Agreed ps c none) {t : Tag} (ht : c.isCurrent t = false) :
    ∀ k ∈ c.broker.held, k.tag ≠ t := by
  rintro k hk rfl
  have hsession := h.session_of_held hk
  have hcurrent := h.steady.current _ hsession
  simp [Connection.isCurrent, hsession, hcurrent] at ht

/-- A delivery that the connection has resolved, or passed over, is not held. -/
theorem Agreed.not_held_of_resolve (h : Agreed ps c none) (t : Tag) (outcome : Outcome) :
    ∀ k ∈ (c.resolve (Broker.api receiver) t outcome).2.broker.held, k.tag ≠ t := by
  rw [h.steady.resolve_eq]
  split
  · rw [resolve_act]
    exact h.orderly.not_held_of_resolve t outcome
  · rename_i hsession
    rintro k hk rfl
    exact hsession (h.session_of_held hk)

end

/-! ## What the worker has ahead of it -/

/-- The front of what is on its way can go if it is not held. -/
theorem Broker.Along.tail {b : Broker} {d : Delivery} {front : List Delivery} (h : Along (d :: front) b)
    (hd : ∀ k ∈ b.held, k.tag ≠ d.tag) : Along front b := by
  intro q
  rcases List.sublist_cons_iff.mp (h q) with hpath | ⟨rest, hcons, -⟩
  · exact hpath
  · -- the first that is held would be the front
    have hmem : d ∈ (b.heldOf q).map Held.delivery := hcons ▸ List.mem_cons_self
    obtain ⟨k, hk, rfl⟩ := List.mem_map.mp hmem
    exact absurd rfl (hd k (List.mem_filter.mp hk).1)

namespace Worker

variable {β : Type} {api : BrokerApi β} {w w' : Worker β ρ}

/-- The deliveries that have reached the worker, the one in hand first. -/
def ahead (w : Worker β ρ) : List Delivery := w.activity.delivery?.toList ++ w.channel.buffer

/-- A step leaves the worker with what it has ahead of it, or lets go of the delivery in hand: one that is not
current, or one that was being resolved. -/
theorem Stepped.ahead (h : Stepped api w w') :
    w'.ahead = w.ahead ∨ ∃ d, w.ahead = d :: w'.ahead ∧ w.activity.underway = none ∧
      (w.connection.isCurrent d.tag = false ∧ Same w.connection w'.connection ∨
        ∃ outcome, Same (w.connection.resolve api d.tag outcome).2 w'.connection) := by
  unfold Worker.ahead
  cases h with
  | took h buffer =>
    rw [h, buffer]
    exact Or.inl rfl
  | asked h | hurried h =>
    rw [h]
    exact Or.inl rfl
  | refused h =>
    rw [delivery?_toward, h]
    exact Or.inl rfl
  | stale h hd =>
    rw [h]
    exact Or.inr ⟨_, rfl, rfl, Or.inl ⟨hd, ⟨rfl, rfl, rfl, rfl, rfl, rfl⟩⟩⟩
  | settled h same =>
    rw [h]
    exact Or.inr ⟨_, rfl, rfl, Or.inr ⟨_, same⟩⟩
  | ignored h => exact Or.inl rfl
  | connects h | connected h | failed h | leaving h | lost h | stopped h =>
    rw [h]
    exact Or.inl rfl

/-- A worker that has stopped makes no step. -/
theorem Stepped.running (h : Stepped api w w') : w.result? = none := by
  unfold result?
  cases h with
  | connects h | connected h | failed h | leaving h | lost h | ignored h | took h | stale h | asked h | refused h
  | hurried h | settled h | stopped h => rw [h]

/-- The end of a pause leaves the worker with what it has ahead of it, and with its channel and its connection. -/
theorem resume_keeps (w : Worker β ρ) :
    w.resume.ahead = w.ahead ∧ w.resume.channel = w.channel ∧ w.resume.connection = w.connection ∧
      w.resume.result? = w.result? := by
  rcases resume_spec w with heq | ⟨r, ha, heq⟩ | ⟨d, outcome, ha, heq⟩
  · rw [heq]
    exact ⟨rfl, rfl, rfl, rfl⟩
  · rw [heq]
    unfold ahead result?
    rw [ha]
    exact ⟨rfl, rfl, rfl, rfl⟩
  · rw [heq]
    unfold ahead result?
    rw [ha]
    exact ⟨rfl, rfl, rfl, rfl⟩

/-- An answer leaves the worker with what it has ahead of it, and with its channel and the broker. -/
theorem answer_keeps (w : Worker β ρ) (result : Except SinkError Unit) (duration : Nat) :
    (w.answer result duration).ahead = w.ahead ∧ (w.answer result duration).channel = w.channel ∧
      (w.answer result duration).connection.broker = w.connection.broker ∧
      ((w.answer result duration).result? = none → w.result? = none) := by
  rcases answer_spec w result duration with heq | ⟨d, p, j, ha, heq⟩
  · rw [heq]
    exact ⟨rfl, rfl, rfl, id⟩
  · rw [heq]
    unfold ahead result?
    rw [ha, delivery?_toward]
    exact ⟨rfl, rfl, rfl, fun _ => rfl⟩

end Worker

namespace World

variable {x : World ρ}

/-! ## No delivery twice -/

/-- What the worker has ahead of it and what consumers carry was handed out, each hand-out once. -/
def Apart (x : World ρ) : Prop :=
  ∃ gone, x.worker.ahead ++ x.broker.carried ++ gone ~ x.broker.issued.map Held.delivery

theorem apart_start (name : String) (router : Router (Sink ρ)) (bindings : List Binding) (config : WorkerConfig)
    (exchanges : List String) (clock : Instant) : Apart (start name router bindings config exchanges clock) := by
  have hahead : (start name router bindings config exchanges clock).worker.ahead = [] := by
    show (if bindings.isEmpty then _ else _ : Activity ρ).delivery?.toList ++ [] = []
    split <;> rfl
  refine ⟨[], ?_⟩
  rw [hahead]
  exact .refl _

/-- What is handed out is carried, and the worker has no more ahead of it than before. -/
theorem Apart.of_handedOut {x' : World ρ} (h : Apart x) (hout : HandedOut x.broker x'.broker)
    (hahead : ∃ lost, x'.worker.ahead ++ lost ~ x.worker.ahead) : Apart x' := by
  obtain ⟨gone, hgone⟩ := h
  obtain ⟨new, left, hissued, -, hcarried⟩ := hout
  obtain ⟨lost, hlost⟩ := hahead
  refine ⟨left ++ lost ++ gone, ?_⟩
  rw [hissued, List.map_append]
  refine List.perm_iff_count.mpr fun d => ?_
  have hcount := hgone.count_eq d
  have hnew := hcarried.count_eq d
  have hless := hlost.count_eq d
  simp only [List.count_append] at hcount hnew hless ⊢
  omega

theorem apart_next (hx : Sound router config x) (hap : Apart x) (h : Happening) : Apart (x.next h) := by
  have hleads := leads_next x h
  generalize x.next h = x' at hleads ⊢
  cases hleads with
  | moved h =>
    obtain ⟨l, -, hc⟩ := h.change
    refine hap.of_handedOut (change_broker hc hx.agreed).2.2 ?_
    rcases h.ahead with hahead | ⟨d, hahead, -⟩
    · exact ⟨[], by rw [List.append_nil]; exact .of_eq hahead⟩
    · exact ⟨[d], by rw [hahead]; exact List.perm_append_singleton _ _⟩
  | resumed =>
    obtain ⟨hahead, -, hconnection, -⟩ := Worker.resume_keeps x.worker
    unfold Apart broker
    rw [hahead, hconnection]
    exact hap
  | answered result duration =>
    obtain ⟨hahead, -, hbroker, -⟩ := Worker.answer_keeps x.worker result duration
    unfold Apart broker
    rw [hahead, hbroker]
    exact hap
  | aside h =>
    obtain ⟨gone, hgone⟩ := hap
    obtain ⟨new, left, hissued, -, honward⟩ := h.passes hx.agreed.orderly
    refine ⟨left ++ gone, ?_⟩
    rw [hissued, List.map_append]
    refine List.perm_iff_count.mpr fun d => ?_
    have hcount := hgone.count_eq d
    have hnew := honward.count_eq d
    simp only [Worker.ahead, onTheWay, h.activity, List.count_append] at hcount hnew ⊢
    omega

/-- The delivery in hand is not on its way a second time. -/
theorem Apart.not_mem (h : Apart x) (hx : Sound router config x) {d : Delivery} {rest : List Delivery}
    (hahead : x.worker.ahead = d :: rest) : d ∉ rest ++ x.broker.carried := by
  obtain ⟨gone, hgone⟩ := h
  have hall : ((d :: (rest ++ x.broker.carried ++ gone)).map (·.tag)).Nodup := by
    have heq : d :: (rest ++ x.broker.carried ++ gone) = x.worker.ahead ++ x.broker.carried ++ gone := by
      rw [hahead]
      rfl
    rw [heq]
    refine (hgone.map _).nodup_iff.mpr ?_
    rw [List.map_map]
    exact hx.agreed.orderly.once
  intro hmem
  exact (List.nodup_cons.mp hall).1 (List.mem_map_of_mem (List.mem_append_left _ hmem))

/-! ## On the way, in order -/

/-- The channel is open, and what is held is on its way to the worker, in order. -/
structure Lined (x : World ρ) : Prop where
  isOpen : x.worker.channel.isOpen = true
  along : Along x.worker.ahead x.broker

theorem lined_start (name : String) (router : Router (Sink ρ)) (bindings : List Binding) (config : WorkerConfig)
    (exchanges : List String) (clock : Instant) : Lined (start name router bindings config exchanges clock) :=
  ⟨rfl, along_of_held_nil rfl _⟩

/-- A worker that has stopped stays so. -/
theorem running_next (x : World ρ) (h : Happening) (hrun : (x.next h).worker.result? = none) :
    x.worker.result? = none := by
  have hleads := leads_next x h
  generalize x.next h = x' at hleads hrun
  cases hleads with
  | moved h => exact h.running
  | resumed => exact (Worker.resume_keeps x.worker).2.2.2 ▸ hrun
  | answered result duration => exact (Worker.answer_keeps x.worker result duration).2.2.2 hrun
  | aside h =>
    unfold Worker.result? at hrun ⊢
    rwa [h.activity] at hrun

/-- What is done to the broker by others leaves deliveries on their way. -/
theorem Lined.act (hl : Lined x) (hx : Sound router config x) {a : Act} (ha : Foreign a)
    (hforward : ∀ ch id, a ≠ .forward ch id) : Lined (x.act a) :=
  ⟨hl.isOpen, along_run hx.agreed.orderly hl.along ha.opens hforward⟩

/-- A step of the worker takes the next delivery, or lets go of the one in hand, which is not held then. -/
theorem Lined.moved (hl : Lined x) (hx : Sound router config x) {w : Worker Broker ρ}
    (h : Worker.Stepped (Broker.api 0) x.worker w) (past : Past ρ) :
    Lined { x with worker := w, past := past } := by
  refine ⟨?_, ?_⟩
  · cases h <;> exact hl.isOpen
  · obtain ⟨l, -, hc⟩ := h.change
    have halong : Along x.worker.ahead w.connection.broker := along_change hc hx.agreed hl.along
    show Along w.ahead w.connection.broker
    rcases h.ahead with hahead | ⟨d, hahead, hnone, hlet⟩
    · rwa [hahead]
    · have hagreed := hx.agreed
      rw [hnone] at hagreed
      rw [hahead] at halong
      refine halong.tail ?_
      rcases hlet with ⟨hstale, hsame⟩ | ⟨outcome, hsame⟩
      · rw [hsame.broker]
        exact hagreed.not_held_of_stale hstale
      · rw [hsame.broker]
        exact hagreed.not_held_of_resolve d.tag outcome

/-- **Whatever happens, what is held is on its way to the worker, in order**, until the worker has stopped. -/
theorem lined_next (hx : Sound router config x) (hl : Lined x) (h : Happening)
    (hrun : (x.next h).worker.result? = none) : Lined (x.next h) := by
  cases h with
  | moves =>
    simp only [next]
    split
    · rename_i w hw
      exact hl.moved hx (Worker.stepped_of_step? hw) _
    · exact hl
  | resumes =>
    obtain ⟨hahead, hchannel, hconnection, -⟩ := Worker.resume_keeps x.worker
    refine ⟨(congrArg Channel.isOpen hchannel).trans hl.isOpen, ?_⟩
    show Along x.worker.resume.ahead x.worker.resume.connection.broker
    rw [hahead, hconnection]
    exact hl.along
  | answers result duration =>
    obtain ⟨hahead, hchannel, hbroker, -⟩ := Worker.answer_keeps x.worker result duration
    refine ⟨(congrArg Channel.isOpen hchannel).trans hl.isOpen, ?_⟩
    show Along (x.worker.answer result duration).ahead (x.worker.answer result duration).connection.broker
    rw [hahead, hbroker]
    exact hl.along
  | publishes m => exact hl.act hx (a := .publish m) (foreign_of_byOthers rfl) fun _ _ h => by cases h
  | drops reason =>
    have hdrop := hl.act hx (a := .drop reason) (foreign_of_byOthers rfl) fun _ _ h => by cases h
    exact ⟨hdrop.isOpen, hdrop.along⟩
  | refusesNext count =>
    exact hl.act hx (a := .refuseNext count) (foreign_of_byOthers rfl) fun _ _ h => by cases h
  | refusesAll => exact hl.act hx (a := .refuseAll) (foreign_of_byOthers rfl) fun _ _ h => by cases h
  | hears =>
    simp only [next]
    split
    · exact ⟨hl.isOpen, hl.along⟩
    · exact hl
  | forwards id =>
    simp only [next]
    split
    · rename_i b ch hf
      obtain ⟨c, c', moved, gone, -, -, hmove⟩ := forward?_some hf
      refine ⟨hmove.isOpen.trans hl.isOpen, ?_⟩
      show Along (x.worker.activity.delivery?.toList ++ ch.buffer)
        ((Act.forward x.worker.channel id).run x.broker)
      rw [Act.run_forward hf]
      exact along_forward hx.agreed.orderly hf hl.isOpen hl.along
    · exact hl
  | grants =>
    have hgrant := hl.act hx (a := .grant 0 x.worker.channel) (foreign_of_byOthers rfl) fun _ _ h => by cases h
    have hchannel := (grantTo_spec 0 x.worker.channel.waiting x.broker x.worker.channel).2.2.1
    refine ⟨(congrArg Channel.isOpen hchannel).trans hl.isOpen, ?_⟩
    show Along (x.worker.activity.delivery?.toList ++
      (x.broker.grantTo 0 x.worker.channel.waiting x.worker.channel).2.2.buffer) _
    rw [congrArg Channel.buffer hchannel]
    exact hgrant.along
  | setsShutdown value | ticks clock => exact ⟨hl.isOpen, hl.along⟩
  | leaves =>
    have hnone := running_next x .leaves hrun
    show Lined (if x.worker.result?.isSome then _ else x)
    rw [hnone, if_neg (by simp)]
    exact hl

/-! ## What is resolved is due -/

/-- **The delivery that is being resolved is due** if it is held: nothing of its queue was handed out before it and
is still held, and if it goes back nothing else of its queue is held. -/
theorem due_of_resolving (hx : Sound router config x) (hj : Justified router config x) (hap : Apart x)
    (hl : Lined x) (hw : Windowed x.worker.connection x.worker.activity.underway)
    (hconfig : config.rejectPolicy = .deadLetter ∨ config.prefetch = 1) {d : Delivery} {outcome : Outcome}
    (ha : x.worker.activity = .resolving d outcome) {k : Held} (hk : k ∈ x.broker.held) (htag : d.tag = k.tag) :
    Due x.broker k outcome := by
  have hkq : k ∈ x.broker.heldOf k.queue := List.mem_filter.mpr ⟨hk, decide_eq_true rfl⟩
  have hsame : ∀ k' ∈ x.broker.issued, k'.tag = k.tag → k' = k := fun k' hk' =>
    hx.agreed.orderly.held_eq hk' (hx.agreed.orderly.issued_of_held hk)
  rcases hconfig with hpolicy | hwindow
  · -- it is the first on its way, and so the first of its queue that is held; and nothing goes back
    obtain ⟨k', hk', rfl⟩ := hj.issued d (by rw [ha]; rfl)
    obtain rfl := hsame k' hk' htag
    have hahead : x.worker.ahead = k'.delivery :: x.worker.channel.buffer := by
      unfold Worker.ahead
      rw [ha]
      rfl
    have hpath := hl.along k'.queue
    rw [hahead] at hpath
    rcases List.sublist_cons_iff.mp hpath with hpath | ⟨rest', hcons, -⟩
    · refine absurd ?_ (hap.not_mem hx hahead)
      rcases List.mem_append.mp (hpath.subset (List.mem_map_of_mem hkq)) with hmem | hmem
      · exact List.mem_append_left _ hmem
      · exact List.mem_append_right _ (carriedOn_subset _ _ hmem)
    · obtain ⟨first, rest, hheld, hfirst, -⟩ := List.map_eq_cons_iff.mp hcons
      have hmem : first ∈ x.broker.held := (List.mem_filter.mp (hheld ▸ List.mem_cons_self)).1
      obtain rfl := hsame first (hx.agreed.orderly.issued_of_held hmem) (congrArg Delivery.tag hfirst)
      refine ⟨rest, hheld, fun hback => ?_⟩
      have hdecided := hj.follows
      rw [ha, hback] at hdecided
      obtain ⟨e, -, hrequeue⟩ := hdecided
      rw [hpolicy] at hrequeue
      cases hrequeue
  · -- nothing else is held
    have hone : x.broker.held.length ≤ 1 := by
      have hheld := hw.within.held
      rw [hx.config, hwindow] at hheld
      exact hheld
    have hsingle : x.broker.held = [k] := by
      match hheld : x.broker.held, hone, hk with
      | [k'], _, hk => rw [List.mem_singleton.mp hk]
    refine ⟨[], ?_, fun _ => rfl⟩
    unfold heldOf
    rw [hsingle]
    simp

/-! ## In line -/

/-- All that keeps the copies of every queue in line. -/
structure InOrder (router : Router (Sink ρ)) (config : WorkerConfig) (x : World ρ) : Prop where
  sound : Sound router config x
  tracked : Tracked x
  justified : Justified router config x
  apart : Apart x
  lined : x.worker.result? = none → Lined x
  windowed : Windowed x.worker.connection x.worker.activity.underway
  inLine : InLine x.broker x.past.routed

theorem inOrder_start (name : String) (router : Router (Sink ρ)) (bindings : List Binding) (config : WorkerConfig)
    (exchanges : List String) (clock : Instant) :
    InOrder router config (start name router bindings config exchanges clock) where
  sound := sound_start name router bindings config exchanges clock
  tracked := tracked_start name router bindings config exchanges clock
  justified := justified_start name router bindings config exchanges clock
  apart := apart_start name router bindings config exchanges clock
  lined _ := lined_start name router bindings config exchanges clock
  windowed := windowed_start name router bindings config exchanges clock
  inLine := inLine_withExchanges exchanges

theorem inLine_next (hx : InOrder router config x)
    (hconfig : config.rejectPolicy = .deadLetter ∨ config.prefetch = 1) (h : Happening) :
    InLine (x.next h).broker (x.next h).past.routed := by
  refine (leads_next x h).keeps (P := fun c _ ps => InLine c.broker ps) hx.inLine (fun hl hc => ?_) fun a ha => ?_
  · refine inLine_change hc hx.sound.agreed hx.inLine fun k hk outcome hlk => ?_
    rcases hl with hl | ⟨d, outcome', ha, hl⟩
    · rw [hl] at hlk
      cases hlk
    · rw [hl] at hlk
      obtain ⟨htag, rfl⟩ := Prod.mk.inj (Option.some.inj hlk)
      have hlined : Lined x := hx.lined (by unfold Worker.result?; rw [ha])
      exact due_of_resolving hx.sound hx.justified hx.apart hlined hx.windowed hconfig ha hk htag
  · exact inLine_run hx.sound.agreed.orderly hx.inLine ha.opens fun k _ outcome heq =>
      absurd heq (ha.resolves _ _ _)

theorem inOrder_next (hx : InOrder router config x)
    (hconfig : config.rejectPolicy = .deadLetter ∨ config.prefetch = 1) (h : Happening) :
    InOrder router config (x.next h) where
  sound := sound_next hx.sound h
  tracked := tracked_next hx.sound h hx.tracked
  justified := justified_next hx.sound hx.tracked hx.justified h
  apart := apart_next hx.sound hx.apart h
  lined hrun := lined_next hx.sound (hx.lined (running_next x h hrun)) h hrun
  windowed := windowed_next hx.sound hx.windowed h
  inLine := inLine_next hx hconfig h

theorem inOrder_after (hconfig : config.rejectPolicy = .deadLetter ∨ config.prefetch = 1)
    (happenings : List Happening) : ∀ {x : World ρ}, InOrder router config x →
    InOrder router config (x.after happenings) := by
  induction happenings with
  | nil => exact fun hx => hx
  | cons h happenings ih => exact fun hx => ih (inOrder_next hx hconfig h)

/-- What happens next settles nothing, or the oldest of those that are held of its queue. -/
theorem settled_next (hx : InOrder router config x)
    (hconfig : config.rejectPolicy = .deadLetter ∨ config.prefetch = 1) (h : Happening) :
    (x.next h).broker.settled = x.broker.settled ∨ ∃ k rest, x.broker.heldOf k.queue = k :: rest ∧
      (x.next h).broker.settled = x.broker.settled ++ [k.entry] := by
  rcases resolved_next hx.sound h with hres | ⟨k, hk, d, outcome, ha, htag, -, -, hres⟩
  · unfold settled
    rw [hres]
    exact Or.inl rfl
  · have hlined : Lined x := hx.lined (by unfold Worker.result?; rw [ha])
    obtain ⟨rest, hrest, -⟩ :=
      due_of_resolving hx.sound hx.justified hx.apart hlined hx.windowed hconfig ha hk htag
    have hsettled : (x.next h).broker.settled =
        x.broker.settled ++ if outcome = .reject true then [] else [k.entry] := by
      rw [← settled_append x.broker ⟨k, outcome⟩, ← hres]
      rfl
    rw [hsettled]
    split
    · exact Or.inl (List.append_nil _)
    · exact Or.inr ⟨k, rest, hrest, rfl⟩

end World

/-- In a line, what comes first was put there first. -/
theorem serial_lt_of_inLine {b : Broker} {ps : List (String × Message)} (h : InLine b ps) {q : String}
    {e k : Entry} (he : e ∈ onQueue q b.settled)
    (hk : k ∈ (b.heldOf q).map Held.entry ++ (b.ready q).map (Copy.entry q)) :
    e.serial < k.serial := by
  have hnumbered : (numbered ps).Pairwise fun e k => e.serial < k.serial := by
    rw [← List.pairwise_map, map_serial_numbered]
    exact List.pairwise_lt_range
  have hline : (b.lineup q).Pairwise fun e k => e.serial < k.serial := by
    rw [h.lineup]
    exact hnumbered.sublist List.filter_sublist
  exact (List.pairwise_append.mp hline).2.2 e he k hk

/-- **Copies are resolved in the order in which they were published.** In every run with a policy that puts nothing
back, or with a window of one, the copies of a queue that were acked or rejected for good, then those that are
held, and then those that wait are the copies that were put on it, in that order. So none was resolved for good
while one that was put on its queue before it is ready or held, and the next that is resolved for good is the
first of its queue that was not. -/
theorem resolved_in_order (name : String) (router : Router (Sink ρ)) (bindings : List Binding)
    (config : WorkerConfig) (exchanges : List String) (clock : Instant) (happenings : List Happening)
    (hconfig : config.rejectPolicy = .deadLetter ∨ config.prefetch = 1) :
    let x := (World.start name router bindings config exchanges clock).after happenings
    (∀ q, onQueue q x.broker.settled ++
        ((x.broker.heldOf q).map Held.entry ++ (x.broker.ready q).map (Copy.entry q)) =
      onQueue q (numbered x.past.routed)) ∧
    (∀ q, ∀ e ∈ onQueue q x.broker.settled,
      ∀ k ∈ (x.broker.heldOf q).map Held.entry ++ (x.broker.ready q).map (Copy.entry q), e.serial < k.serial) ∧
    ∀ h, (x.next h).broker.settled = x.broker.settled ∨
      ∃ e rest, (x.next h).broker.settled = x.broker.settled ++ [e] ∧
        onQueue e.queue (numbered x.past.routed) = onQueue e.queue x.broker.settled ++ e :: rest := by
  intro x
  have hx : World.InOrder router config x :=
    World.inOrder_after hconfig happenings (World.inOrder_start name router bindings config exchanges clock)
  refine ⟨hx.inLine.lineup, fun q e he k hk => serial_lt_of_inLine hx.inLine he hk, fun h => ?_⟩
  rcases World.settled_next hx hconfig h with hsame | ⟨k, rest, hrest, hsettled⟩
  · exact Or.inl hsame
  · refine Or.inr ⟨k.entry, rest.map Held.entry ++ (x.broker.ready k.queue).map (Copy.entry k.queue), hsettled, ?_⟩
    have hline : onQueue k.queue x.broker.settled ++
        ((x.broker.heldOf k.queue).map Held.entry ++ (x.broker.ready k.queue).map (Copy.entry k.queue)) =
          onQueue k.queue (numbered x.past.routed) := hx.inLine.lineup k.queue
    rw [hrest] at hline
    exact hline.symm

/-- Two queues share a window of two. The session is lost with one copy acked, one in hand and one in the channel;
both are handed out again, and the worker drops what it has of the lost session. -/
def sharedWindow : List Happening :=
  List.replicate 11 .moves ++
    [.publishes ⟨"a", "k", [123, 125]⟩, .publishes ⟨"a", "l", [123, 125]⟩, .publishes ⟨"a", "k", [255]⟩,
      .forwards 0, .forwards 1, .moves, .moves, .answers (.ok ()) 3, .moves, .forwards 0, .moves,
      .drops "cable pulled", .hears, .moves, .answers (.ok ()) 3] ++
    List.replicate 13 .moves ++
    [.forwards 3, .forwards 2, .moves, .moves, .grants, .forwards 2, .moves, .moves, .answers (.ok ()) 3, .moves,
      .moves, .moves, .moves, .publishes ⟨"a", "k", [123, 125]⟩]

theorem resolved_in_order_sharedWindow :
    let router : Router (Sink Unit) := .only ⟨"documents", fun _ => .ok ()⟩
    let config : WorkerConfig := { WorkerConfig.standard "1" with prefetch := 2 }
    let bindings : List Binding := [⟨"a", "q", "k"⟩, ⟨"a", "r", "l"⟩]
    let x := (World.start "courier" router bindings config ["a"] ⟨0, 0⟩).after sharedWindow
    (config.rejectPolicy = .deadLetter ∨ config.prefetch = 1) ∧
      x.broker.settled.map (·.serial) = [0, 1, 2] ∧ (x.broker.heldOf "q").map (·.copy.serial) = [3] ∧
      onQueue "q" x.broker.settled ++
          ((x.broker.heldOf "q").map Held.entry ++ (x.broker.ready "q").map (Copy.entry "q")) =
        onQueue "q" (numbered x.past.routed) := by
  have hconfig : ({ WorkerConfig.standard "1" with prefetch := 2 } : WorkerConfig).rejectPolicy = .deadLetter ∨
      ({ WorkerConfig.standard "1" with prefetch := 2 } : WorkerConfig).prefetch = 1 := Or.inl rfl
  have h := resolved_in_order "courier" (.only ⟨"documents", fun _ => .ok ()⟩ : Router (Sink Unit))
    [⟨"a", "q", "k"⟩, ⟨"a", "r", "l"⟩] { WorkerConfig.standard "1" with prefetch := 2 } ["a"] ⟨0, 0⟩ sharedWindow
    hconfig
  exact ⟨hconfig, by decide +kernel, by decide +kernel, h.1 "q"⟩

end EventCourier

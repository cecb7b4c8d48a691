import Strix.Interleaving
import Strix.Notifications
import Strix.RowLedger

/-!
# Lost notification rules

Creations and deletions of notification rules run side by side on one bucket,
while reads and writes of the database may begin to fail at any time.  The ledger
lists the creations answered 201 and the deletions answered 204, in the order of
the answers; the rules there are at the start count as created.

A handler writes back what it has read, so it undoes every write in between, and
a creation whose read has failed writes its rule alone.

* `rulesKept_iff_readIsCurrent`: the table keeps the ledger throughout a run
  exactly when every handler that writes has read, apart from the rule its request
  is about, the rules that are still stored.
-/

namespace Strix

open AtomicProgram AtomicProgram.Prog MachineRuns RowTable

/-! ## Requests side by side -/

/-- A request about the rules of a bucket.  A creation comes with the ULID that is
drawn for it. -/
inductive NotificationRequest
  | create (req : CreateNotificationRuleRequest) (drawn : String)
  | delete (ruleId : String)

namespace NotificationRequest

def program (bucket : String) : NotificationRequest → NotificationProg
  | create req drawn => createBucketNotification bucket req drawn
  | delete ruleId => deleteBucketNotification bucket ruleId

/-- The status that says the request was carried out. -/
def success : NotificationRequest → Nat
  | create .. => 201
  | delete _ => 204

/-- What the request asks for, as an entry of the ledger. -/
def asked : NotificationRequest → Option (LedgerEntry NotificationRule String)
  | create req drawn => (req.newRule drawn).toOption.map .created
  | delete ruleId => some (.deleted ruleId)

/-- The entry that a reply makes. -/
def entry (request : NotificationRequest) (reply : NotificationReply) :
    List (LedgerEntry NotificationRule String) :=
  if reply.status = request.success then request.asked.toList else []

/-- The request is about the rule: it adds this rule, or deletes the rules of its id. -/
def About (rule : NotificationRule) : NotificationRequest → Prop
  | create req drawn => req.newRule drawn = .ok rule
  | delete ruleId => rule.id = ruleId

end NotificationRequest

/-- Answers to requests, in their order. -/
abbrev RuleLedger := List (LedgerEntry NotificationRule String)

abbrev NotificationPool := Pool NotificationWorld Empty NotificationReply

/-- What is answered in a turn that leads from one pool to another. -/
def answered (requests : List NotificationRequest) (c c' : NotificationPool) :
    Turn DatabaseEvent → RuleLedger
  | .world _ => []
  | .thread i =>
    match requests[i]?, c.threads[i]?, c'.threads[i]? with
    | some request, some (.step _ _), some (.done reply) => request.entry reply
    | _, _, _ => []

/-- The handlers of the requests, before their first step. -/
def notificationPool (bucket : String) (w : NotificationWorld)
    (requests : List NotificationRequest) : NotificationPool :=
  { state := w, threads := requests.map (NotificationRequest.program bucket) }

/-- The ledger at the start: the rules there are were created before. -/
def NotificationWorld.ledger (bucket : String) (w : NotificationWorld) : RuleLedger :=
  (w.rules bucket).map .created

/-- The machine whose runs are the schedules, with the ledger of the answers. -/
def notificationRuns (bucket : String) (w : NotificationWorld)
    (requests : List NotificationRequest) :
    Machine (NotificationPool × RuleLedger) (Turn DatabaseEvent) Unit :=
  (pool DatabaseEvent.happens (notificationPool bucket w requests)).observed
    (fun ledger c turn _ =>
      ledger ++ answered requests c (c.turn DatabaseEvent.happens turn) turn)
    (w.ledger bucket)

/-- **No rule is lost or comes back**: the table keeps the ledger. -/
def RulesKept (bucket : String) (s : NotificationPool × RuleLedger) : Prop :=
  Kept NotificationRule.id s.2 (s.1.state.rules bucket)

/-- The handler of a request, having read, is about to write a configuration. -/
inductive Saving (bucket : String) (read : ReadResult) :
    NotificationRequest → NotificationConfiguration → NotificationProg → Prop
  | creating {req : CreateNotificationRuleRequest} {drawn : String} {rule : NotificationRule}
      (h : req.newRule drawn = .ok rule) :
      Saving bucket read (.create req drawn) (read.withRule rule) (saveWithRule bucket req rule read)
  | deleting {ruleId : String} {config : NotificationConfiguration} (h : read = .ok (some config))
      (hthere : (config.withoutRule ruleId).rules.length ≠ config.rules.length) :
      Saving bucket read (.delete ruleId) (config.withoutRule ruleId)
        (saveWithoutRule bucket ruleId read)

/-- **What a handler writes back is current**: if the turn is that of a handler
whose write is taken, the rules it has read are those that are stored, apart from
the rule its request is about. -/
def ReadIsCurrent (bucket : String) (requests : List NotificationRequest)
    (s : NotificationPool × RuleLedger) (turn : Turn DatabaseEvent) : Prop :=
  ∀ i request read config p, turn = .thread i → requests[i]? = some request →
    s.1.threads[i]? = some p → Saving bucket read request config p →
    s.1.state.Takes bucket config → ∀ rule, ¬request.About rule →
      (rule ∈ read.orDefault.rules ↔ rule ∈ s.1.state.rules bucket)

/-! ## The course of a handler -/

variable {bucket : String} {read : ReadResult} {request : NotificationRequest}
  {config : NotificationConfiguration} {p : NotificationProg} {w : NotificationWorld}
  {requests : List NotificationRequest} {ledger : RuleLedger}

/-- **The write of a handler** is taken and answered with success, or it changes
nothing and is answered otherwise. -/
theorem Saving.advance (h : Saving bucket read request config p) (w : NotificationWorld) :
    ∃ reply w', p.advance w = (done reply, w') ∧
      ((w.Takes bucket config ∧ reply.status = request.success ∧
          w'.rules bucket = config.rules) ∨
        (¬w.Takes bucket config ∧ reply.status ≠ request.success ∧ w' = w)) := by
  cases h with
  | @creating req drawn rule h =>
      refine ⟨createdReply req rule (putBucketNotification bucket (read.withRule rule) w).1, _,
        rfl, ?_⟩
      rcases putBucketNotification_cases bucket (read.withRule rule) w with
        ⟨htakes, hok, hrules⟩ | ⟨hnot, ⟨e, hfails⟩, hsame⟩
      · exact Or.inl ⟨htakes, by rw [hok]; rfl, hrules⟩
      · refine Or.inr ⟨hnot, ?_, hsame⟩
        rw [hfails]
        simp only [createdReply, NotificationReply.refusal, NotificationRequest.success]
        split <;> simp
  | @deleting ruleId config h hthere =>
      subst h
      refine ⟨deletedReply (putBucketNotification bucket (config.withoutRule ruleId) w).1,
        (putBucketNotification bucket (config.withoutRule ruleId) w).2, ?_, ?_⟩
      · simp only [saveWithoutRule, if_neg hthere]
        rfl
      · rcases putBucketNotification_cases bucket (config.withoutRule ruleId) w with
          ⟨htakes, hok, hrules⟩ | ⟨hnot, ⟨e, hfails⟩, hsame⟩
        · exact Or.inl ⟨htakes, by rw [hok]; rfl, hrules⟩
        · refine Or.inr ⟨hnot, ?_, hsame⟩
          rw [hfails]
          simp [deletedReply, NotificationReply.refusal, NotificationRequest.success]

/-- A handler that is about to write has a step left. -/
theorem Saving.exists_step (h : Saving bucket read request config p) :
    ∃ (β : Type) (act : NotificationWorld → β × NotificationWorld) (next : β → NotificationProg),
      p = .step act next := by
  cases h with
  | creating h => exact ⟨_, _, _, rfl⟩
  | deleting h hthere =>
      subst h
      simp only [saveWithoutRule, if_neg hthere]
      exact ⟨_, _, _, rfl⟩

/-- **Where a handler can be**: about to read, about to write back rules that were
created, or at its end. -/
inductive OnCourse (bucket : String) (ledger : RuleLedger) (request : NotificationRequest) :
    NotificationProg → Prop
  | reading {goOn : ReadResult → NotificationProg}
      (h : ∀ read, (∃ config, Saving bucket read request config (goOn read)) ∨
        ∃ reply, goOn read = done reply ∧ reply.status ≠ request.success) :
      OnCourse bucket ledger request (observe (getBucketNotification bucket) >>= goOn)
  | saving {read : ReadResult} {config : NotificationConfiguration} {p : NotificationProg}
      (h : Saving bucket read request config p)
      (hread : ∀ rule ∈ config.rules, request.About rule ∨ .created rule ∈ ledger) :
      OnCourse bucket ledger request p
  | ended (reply : NotificationReply) : OnCourse bucket ledger request (done reply)

theorem OnCourse.append (h : OnCourse bucket ledger request p) (more : RuleLedger) :
    OnCourse bucket (ledger ++ more) request p := by
  cases h with
  | reading h => exact .reading h
  | saving h hread =>
      exact .saving h fun rule hrule =>
        (hread rule hrule).imp_right (List.mem_append_left more)
  | ended reply => exact .ended reply

/-- What a handler on course writes was created before, or is what its request is
about. -/
theorem OnCourse.written (h : OnCourse bucket ledger request p)
    (hsaving : Saving bucket read request config p) (htakes : w.Takes bucket config) :
    ∀ rule ∈ config.rules, request.About rule ∨ .created rule ∈ ledger := by
  obtain ⟨reply, w', hend, hwrite⟩ := hsaving.advance w
  rcases hwrite with ⟨-, hstatus, hrules⟩ | ⟨hnot, -, -⟩
  · cases h with
    | @reading goOn hgoOn =>
        -- A read changes no state, and what ends with it is no success.
        have hgone : goOn (getBucketNotification bucket w) = done reply := congrArg Prod.fst hend
        rcases hgoOn (getBucketNotification bucket w) with
          ⟨config', hsaves⟩ | ⟨reply', hends, hother⟩
        · obtain ⟨β, act, next, hstep⟩ := hsaves.exists_step
          exact nomatch hgone.symm.trans hstep
        · obtain rfl := Prog.done.inj (hends.symm.trans hgone)
          exact absurd hstatus hother
    | @saving read' config' _ h' hread =>
        obtain ⟨reply', w'', hend', hwrite'⟩ := h'.advance w
        obtain ⟨hreply, rfl⟩ := Prod.mk.inj (hend'.symm.trans hend)
        obtain rfl := Prog.done.inj hreply
        rcases hwrite' with ⟨-, -, hrules'⟩ | ⟨-, hother, -⟩
        · rw [← hrules, hrules']
          exact hread
        · exact absurd hstatus hother
    | ended reply' =>
        obtain ⟨β, act, next, hstep⟩ := hsaving.exists_step
        cases hstep
  · exact absurd htakes hnot

/-- A written rule that the request is about is the one it asks to create. -/
theorem Saving.mem_asked (h : Saving bucket read request config p) {rule : NotificationRule}
    (hrule : rule ∈ config.rules) (habout : request.About rule) :
    .created rule ∈ request.asked.toList := by
  cases h with
  | @creating req drawn _ _ =>
      have hnew : req.newRule drawn = .ok rule := habout
      simp [NotificationRequest.asked, hnew, Except.toOption]
  | deleting h hthere =>
      have hkept := (List.mem_filter.mp hrule).2
      have hid : rule.id = _ := habout
      simp [hid] at hkept

/-- Every handler starts on course. -/
theorem program_onCourse (bucket : String) (ledger : RuleLedger) (request : NotificationRequest) :
    OnCourse bucket ledger request (request.program bucket) := by
  cases request with
  | create req drawn =>
      show OnCourse _ _ _ (createBucketNotification bucket req drawn)
      unfold createBucketNotification
      cases hrule : req.newRule drawn with
      | error refusal => exact .ended refusal
      | ok rule => exact .reading fun read => Or.inl ⟨_, .creating hrule⟩
  | delete ruleId =>
      refine .reading fun read => ?_
      match read with
      | .error e =>
          exact Or.inr ⟨_, rfl, by simp [NotificationReply.refusal, NotificationRequest.success]⟩
      | .ok none =>
          exact Or.inr ⟨_, rfl, by simp [NotificationReply.refusal, NotificationRequest.success]⟩
      | .ok (some config) =>
          by_cases hthere : (config.withoutRule ruleId).rules.length = config.rules.length
          · refine Or.inr ⟨.refusal 404 ("Rule '" ++ ruleId ++ "' not found"), ?_, ?_⟩
            · simp only [saveWithoutRule, if_pos hthere]
            · simp [NotificationReply.refusal, NotificationRequest.success]
          · exact Or.inl ⟨_, .deleting rfl hthere⟩

/-- A read gives stored rules. -/
theorem mem_rules_of_read {rule : NotificationRule}
    (h : rule ∈ (ReadResult.orDefault (getBucketNotification bucket w)).rules) :
    rule ∈ w.rules bucket := by
  unfold getBucketNotification at h
  cases hfault : w.readFault with
  | some message => simp [hfault, ReadResult.orDefault, Except.toOption] at h
  | none =>
      by_cases hfound : bucket ∈ w.buckets
      · simpa [hfault, hfound, ReadResult.orDefault, Except.toOption, NotificationWorld.rules]
          using h
      · simp [hfault, hfound, ReadResult.orDefault, Except.toOption] at h

/-- A written rule has been read, or the request is about it. -/
theorem Saving.mem_read (h : Saving bucket read request config p) {rule : NotificationRule}
    (hrule : rule ∈ config.rules) : rule ∈ read.orDefault.rules ∨ request.About rule := by
  cases h with
  | creating hnew =>
      rcases List.mem_append.mp hrule with hbase | hlast
      · exact Or.inl hbase
      · exact Or.inr (List.mem_singleton.mp hlast ▸ hnew)
  | deleting h hthere =>
      subst h
      exact Or.inl (List.mem_filter.mp hrule).1

/-! ## One turn -/

/-- What holds throughout a run: the stored rules have an id each and were
created, and every handler is on its course. -/
structure Accounted (bucket : String) (requests : List NotificationRequest)
    (s : NotificationPool × RuleLedger) : Prop where
  keyed : Keyed NotificationRule.id (s.1.state.rules bucket)
  created : ∀ rule ∈ s.1.state.rules bucket, .created rule ∈ s.2
  courses : List.Forall₂ (OnCourse bucket s.2) requests s.1.threads

/-- The turn is that of a handler whose write is taken. -/
structure Writes (bucket : String) (requests : List NotificationRequest)
    (c : NotificationPool) (i : Nat) (request : NotificationRequest) (read : ReadResult)
    (config : NotificationConfiguration) : Prop where
  asked : requests[i]? = some request
  saving : ∃ p, c.threads[i]? = some p ∧ Saving bucket read request config p
  taken : c.state.Takes bucket config

/-- A handler that goes on stays on course with the others. -/
theorem courses_set {i : Nat} {threads : List NotificationProg} {q : NotificationProg}
    (hcourses : List.Forall₂ (OnCourse bucket ledger) requests threads)
    (hasked : requests[i]? = some request) (hq : OnCourse bucket ledger request q) :
    List.Forall₂ (OnCourse bucket ledger) requests (threads.set i q) := by
  have hset := forall₂_set i hcourses hq
  rwa [set_stage hasked] at hset

/-- A turn of a handler. -/
theorem notificationRuns_advance {i : Nat} {c : NotificationPool} {q : NotificationProg}
    {w' : NotificationWorld} (hp : c.threads[i]? = some p) (hgoes : p.advance c.state = (q, w')) :
    (notificationRuns bucket w requests).next (c, ledger) (.thread i) =
      ({ state := w', threads := c.threads.set i q },
        ledger ++
          answered requests c { state := w', threads := c.threads.set i q } (.thread i)) := by
  have hturn : c.turn DatabaseEvent.happens (.thread i) =
      { state := w', threads := c.threads.set i q } := by
    simp [Pool.turn, hp, hgoes]
  rw [← hturn]
  rfl

/-- A turn of a handler that has steps left. -/
theorem notificationRuns_goesOn {i : Nat} {c : NotificationPool} {q : NotificationProg}
    {w' : NotificationWorld} (hp : c.threads[i]? = some p) (hgoes : p.advance c.state = (q, w'))
    (hstep : ∃ (β : Type) (act : NotificationWorld → β × NotificationWorld)
      (next : β → NotificationProg), q = .step act next) :
    (notificationRuns bucket w requests).next (c, ledger) (.thread i) =
      ({ state := w', threads := c.threads.set i q }, ledger) := by
  obtain ⟨β, act, next, rfl⟩ := hstep
  have hthread : i < c.threads.length := (List.getElem?_eq_some_iff.mp hp).1
  rw [notificationRuns_advance hp hgoes]
  simp [answered, hthread]

/-- A turn of a handler that ends with a reply. -/
theorem notificationRuns_ends (bucket : String) (w : NotificationWorld)
    (ledger : RuleLedger) {i : Nat} {c : NotificationPool}
    {reply : NotificationReply} {w' : NotificationWorld} (hasked : requests[i]? = some request)
    (hp : c.threads[i]? = some p)
    (hstep : ∃ (β : Type) (act : NotificationWorld → β × NotificationWorld)
      (next : β → NotificationProg), p = .step act next)
    (hend : p.advance c.state = (done reply, w')) :
    (notificationRuns bucket w requests).next (c, ledger) (.thread i) =
      ({ state := w', threads := c.threads.set i (done reply) },
        ledger ++ request.entry reply) := by
  obtain ⟨β, act, next, rfl⟩ := hstep
  have hthread : i < c.threads.length := (List.getElem?_eq_some_iff.mp hp).1
  have hset : (c.threads.set i (done reply : NotificationProg))[i]? = some (done reply) := by
    simp [hthread]
  rw [notificationRuns_advance hp hend]
  simp only [answered, hasked, hp, hset]

/-- **A write that is taken**: the table has the configuration, the ledger what the
request asked for, and all handlers are on course. -/
theorem accounted_writes {i : Nat} {s : NotificationPool × RuleLedger}
    (hs : Accounted bucket requests s) (h : Writes bucket requests s.1 i request read config) :
    ((notificationRuns bucket w requests).next s (.thread i)).1.state.rules bucket = config.rules ∧
      ((notificationRuns bucket w requests).next s (.thread i)).2 =
        s.2 ++ request.asked.toList ∧
      Accounted bucket requests ((notificationRuns bucket w requests).next s (.thread i)) := by
  obtain ⟨c, ledger⟩ := s
  obtain ⟨p, hp, hsaving⟩ := h.saving
  obtain ⟨reply, w', hend, hwrite⟩ := hsaving.advance c.state
  rcases hwrite with ⟨-, hstatus, hrules⟩ | ⟨hnot, -, -⟩
  · have hnext := notificationRuns_ends bucket w ledger
      h.asked hp hsaving.exists_step hend
    have hentry : request.entry reply = request.asked.toList := if_pos hstatus
    rw [hnext, hentry]
    refine ⟨hrules, rfl, ?_, ?_, ?_⟩
    · exact hrules.symm ▸ h.taken.distinct
    · intro rule hrule
      rw [hrules] at hrule
      obtain ⟨q, hq, hcourse⟩ := forall₂_getElem hs.courses h.asked
      obtain rfl := Option.some.inj (hq.symm.trans hp)
      rcases hcourse.written hsaving h.taken rule hrule with habout | hcreated
      · exact List.mem_append_right _ (hsaving.mem_asked hrule habout)
      · exact List.mem_append_left _ hcreated
    · have hcourses := hs.courses.imp fun _ _ hcourse => hcourse.append request.asked.toList
      exact courses_set hcourses h.asked (.ended reply)
  · exact absurd h.taken hnot

/-- **A turn without such a write** changes neither the rules nor the ledger. -/
theorem accounted_quiet {s : NotificationPool × RuleLedger} {turn : Turn DatabaseEvent}
    (hs : Accounted bucket requests s)
    (h : ∀ i, turn = .thread i → ∀ request read config,
      ¬Writes bucket requests s.1 i request read config) :
    ((notificationRuns bucket w requests).next s turn).1.state.rules bucket =
        s.1.state.rules bucket ∧
      ((notificationRuns bucket w requests).next s turn).2 = s.2 ∧
      Accounted bucket requests ((notificationRuns bucket w requests).next s turn) := by
  obtain ⟨c, ledger⟩ := s
  -- A turn that leaves the rules and the ledger, and a thread on course.
  have hkeep : ∀ c' : NotificationPool, c'.state.rules bucket = c.state.rules bucket →
      List.Forall₂ (OnCourse bucket ledger) requests c'.threads →
      (notificationRuns bucket w requests).next (c, ledger) turn = (c', ledger) →
      ((notificationRuns bucket w requests).next (c, ledger) turn).1.state.rules bucket =
          c.state.rules bucket ∧
        ((notificationRuns bucket w requests).next (c, ledger) turn).2 = ledger ∧
        Accounted bucket requests ((notificationRuns bucket w requests).next (c, ledger) turn) := by
    intro c' hrules hcourses hnext
    rw [hnext]
    refine ⟨hrules, rfl, ?_, ?_, hcourses⟩
    · exact hrules.symm ▸ hs.keyed
    · exact hrules.symm ▸ hs.created
  cases turn with
  | world event =>
      refine hkeep { c with state := event.happens c.state } ?_ hs.courses ?_
      · cases event <;> rfl
      · show (c.turn DatabaseEvent.happens (.world event), ledger ++ []) = _
        rw [List.append_nil]
        rfl
  | thread i =>
      cases hasked : requests[i]? with
      | none =>
          have hnone : c.threads[i]? = none := by
            have hlength := hs.courses.length_eq
            simpa [← hlength] using hasked
          refine hkeep c rfl hs.courses ?_
          show (c.turn DatabaseEvent.happens (.thread i),
            ledger ++
              answered requests c (c.turn DatabaseEvent.happens (.thread i)) (.thread i)) = _
          simp [Pool.turn, hnone, answered]
      | some request =>
          obtain ⟨p, hp, hcourse⟩ := forall₂_getElem hs.courses hasked
          cases hcourse with
          | @reading goOn hgoOn =>
              have hend : ∀ q, goOn (getBucketNotification bucket c.state) = q →
                  Prog.advance (observe (getBucketNotification bucket) >>= goOn) c.state =
                    (q, c.state) := by
                intro q hq
                rw [← hq]
                rfl
              rcases hgoOn (getBucketNotification bucket c.state) with
                ⟨config, hsaving⟩ | ⟨reply, hends, hstatus⟩
              · have hcourse : OnCourse bucket ledger request
                    (goOn (getBucketNotification bucket c.state)) := by
                  refine .saving hsaving fun rule hrule => ?_
                  rcases hsaving.mem_read hrule with hread | habout
                  · exact Or.inr (hs.created rule (mem_rules_of_read hread))
                  · exact Or.inl habout
                refine hkeep { c with threads := c.threads.set i _ } rfl
                  (courses_set hs.courses hasked hcourse) ?_
                exact notificationRuns_goesOn hp (hend _ rfl) hsaving.exists_step
              · refine hkeep { c with threads := c.threads.set i (done reply) } rfl
                  (courses_set hs.courses hasked (.ended reply)) ?_
                have hnext := notificationRuns_ends bucket w ledger
                  hasked hp ⟨_, _, _, rfl⟩ (hend _ hends)
                have hentry : request.entry reply = [] := if_neg hstatus
                rw [hnext, hentry, List.append_nil]
          | @saving read config _ hsaving hread =>
              obtain ⟨reply, w', hend, hwrite⟩ := hsaving.advance c.state
              rcases hwrite with ⟨htakes, -, -⟩ | ⟨-, hstatus, rfl⟩
              · exact absurd ⟨hasked, ⟨p, hp, hsaving⟩, htakes⟩ (h i rfl request read config)
              · refine hkeep { c with threads := c.threads.set i (done reply) } rfl
                  (courses_set hs.courses hasked (.ended reply)) ?_
                have hnext := notificationRuns_ends bucket w ledger
                  hasked hp hsaving.exists_step hend
                have hentry : request.entry reply = [] := if_neg hstatus
                rw [hnext, hentry, List.append_nil]
          | ended reply =>
              refine hkeep c rfl hs.courses ?_
              show (c.turn DatabaseEvent.happens (.thread i),
                ledger ++ answered requests c (c.turn DatabaseEvent.happens (.thread i))
                  (.thread i)) = _
              rw [turn_ended hp rfl]
              simp [answered, hp]

/-- **A write that is taken keeps the ledger** exactly if the rules read are the
stored ones, apart from the rule that the request is about. -/
theorem rulesKept_writes {i : Nat} {s : NotificationPool × RuleLedger}
    (hs : Accounted bucket requests s) (hkept : RulesKept bucket s)
    (h : Writes bucket requests s.1 i request read config) :
    RulesKept bucket ((notificationRuns bucket w requests).next s (.thread i)) ↔
      ∀ rule, ¬request.About rule →
        (rule ∈ read.orDefault.rules ↔ rule ∈ s.1.state.rules bucket) := by
  obtain ⟨hrules, hledger, hnext⟩ := accounted_writes (w := w) hs h
  have hstanding : ∀ rule, rule ∈ s.1.state.rules bucket ↔ Standing NotificationRule.id s.2 rule :=
    (kept_iff hs.keyed hs.created).mp hkept
  have hexact : RulesKept bucket ((notificationRuns bucket w requests).next s (.thread i)) ↔
      ∀ rule, rule ∈ config.rules ↔
        Standing NotificationRule.id (s.2 ++ request.asked.toList) rule := by
    rw [← hrules, ← hledger]
    exact kept_iff hnext.keyed hnext.created
  rw [hexact]
  refine forall_congr' fun rule => ?_
  obtain ⟨p, -, hsaving⟩ := h.saving
  cases hsaving with
  | @creating req drawn new hnew =>
      have hasked : (NotificationRequest.create req drawn).asked.toList = [.created new] := by
        simp [NotificationRequest.asked, hnew, Except.toOption]
      have habout : (NotificationRequest.create req drawn).About rule ↔ rule = new := by
        simp [NotificationRequest.About, hnew, eq_comm]
      rw [hasked, standing_created, habout, ← hstanding]
      simp only [ReadResult.withRule, List.mem_append, List.mem_singleton]
      tauto
  | @deleting ruleId config hread hthere =>
      subst hread
      show _ ↔ (¬rule.id = ruleId → (rule ∈ config.rules ↔ rule ∈ s.1.state.rules bucket))
      show (_ ↔ Standing NotificationRule.id (s.2 ++ [.deleted ruleId]) rule) ↔ _
      rw [standing_deleted, ← hstanding]
      simp only [NotificationConfiguration.withoutRule, List.mem_filter, bne_iff_ne, ne_eq]
      tauto

/-- A handler's write is taken in a turn, or none is. -/
theorem writes_or_quiet (s : NotificationPool × RuleLedger) (turn : Turn DatabaseEvent) :
    (∃ i request read config,
        turn = .thread i ∧ Writes bucket requests s.1 i request read config) ∨
      ∀ i, turn = .thread i → ∀ request read config,
        ¬Writes bucket requests s.1 i request read config := by
  by_cases hwrites : ∃ i request read config,
      turn = .thread i ∧ Writes bucket requests s.1 i request read config
  · exact Or.inl hwrites
  · exact Or.inr fun i hturn request read config hw =>
      hwrites ⟨i, request, read, config, hturn, hw⟩

/-- **The table keeps the ledger** in every state of a run exactly when every
handler whose write is taken has read what is stored, apart from the rule its
request is about. -/
theorem rulesKept_iff_readIsCurrent (hw : Keyed NotificationRule.id (w.rules bucket))
    (requests : List NotificationRequest) (schedule : List (Turn DatabaseEvent)) :
    (notificationRuns bucket w requests).AllStates (RulesKept bucket)
        (notificationRuns bucket w requests).init schedule ↔
      (notificationRuns bucket w requests).AllSteps (ReadIsCurrent bucket requests)
        (notificationRuns bucket w requests).init schedule := by
  have hstart : Accounted bucket requests (notificationRuns bucket w requests).init := by
    refine ⟨hw, fun rule hrule => List.mem_map_of_mem hrule, ?_⟩
    exact List.forall₂_map_right_iff.mpr
      (List.forall₂_same.mpr fun request _ => program_onCourse bucket _ request)
  have hkept : RulesKept bucket (notificationRuns bucket w requests).init := by
    refine (kept_iff hw hstart.created).mpr fun rule => ⟨fun hrule => ?_, fun hstanding => ?_⟩
    · obtain ⟨front, back, hsplit⟩ := List.append_of_mem hrule
      refine ⟨front.map .created, back.map .created, ?_, by simp⟩
      show (w.rules bucket).map LedgerEntry.created = _
      simp [hsplit]
    · have hcreated := hstanding.created_mem
      have hmem : LedgerEntry.created rule ∈ (w.rules bucket).map LedgerEntry.created := hcreated
      obtain ⟨rule', hrule', heq⟩ := List.mem_map.mp hmem
      exact LedgerEntry.created.inj heq ▸ hrule'
  refine Machine.allStates_iff_allSteps (I := Accounted bucket requests) (S := fun _ _ => True)
    ?_ ?_ hstart hkept (Machine.allSteps_of_forall _ (fun _ _ => trivial) _ _)
  · intro s turn hs _
    rcases writes_or_quiet s turn with ⟨i, request, read, config, rfl, hwrites⟩ | hquiet
    · exact (accounted_writes hs hwrites).2.2
    · exact (accounted_quiet hs hquiet).2.2
  · intro s turn hs _ hkept
    rcases writes_or_quiet s turn with ⟨i, request, read, config, rfl, hwrites⟩ | hquiet
    · have hone := rulesKept_writes (w := w) hs hkept hwrites
      constructor
      · intro hnext j request' read' config' p hturn hasked hp hsaving htakes
        obtain rfl := Turn.thread.inj hturn
        exact (rulesKept_writes hs hkept ⟨hasked, ⟨p, hp, hsaving⟩, htakes⟩).mp hnext
      · intro hguard
        obtain ⟨p, hp, hsaving⟩ := hwrites.saving
        exact hone.mpr (hguard i request read config p rfl hwrites.asked hp hsaving hwrites.taken)
    · obtain ⟨hrules, hledger, -⟩ := accounted_quiet (w := w) hs hquiet
      refine iff_of_true ?_ ?_
      · unfold RulesKept
        rw [hrules, hledger]
        exact hkept
      · intro i request read config p hturn hasked hp hsaving htakes
        exact absurd ⟨hasked, ⟨p, hp, hsaving⟩, htakes⟩ (hquiet i hturn request read config)

/-! ## Two creations -/

/-- A bucket without notification rules. -/
def bareBucket : NotificationWorld := { buckets := ["docs"] }

/-- A rule that posts what is put to a webhook. -/
def webhookRequest (id : String) : NotificationRequest :=
  .create { id := some id, events := ["s3:ObjectCreated:Put"], destinationType := "webhook"
            destinationUrl := "http://hooks/" } "01ARZ3NDEKTSV4RRFFQ69G5FAV"

def webhookRule (id : String) : NotificationRule :=
  { id := id, events := [.objectCreatedPut], destination := .webhook "http://hooks/" }

def twoCreations : List NotificationRequest := [webhookRequest "a", webhookRequest "b"]

/-- Both creations read before either writes. -/
def crossed : List (Turn DatabaseEvent) := [.thread 0, .thread 1, .thread 0, .thread 1]

/-- Reads fail when the second creation begins. -/
def blindly : List (Turn DatabaseEvent) :=
  [.thread 0, .thread 0, .world (.reads (some "disk I/O error")), .thread 1, .thread 1]

/-- Both schedules answer both creations with 201 and leave the second rule alone. -/
theorem twoCreations_end :
    ∀ schedule ∈ [crossed, blindly],
      ((notificationRuns "docs" bareBucket twoCreations).after
          (notificationRuns "docs" bareBucket twoCreations).init schedule).1.state.rules "docs" =
        [webhookRule "b"] ∧
      ((notificationRuns "docs" bareBucket twoCreations).after
          (notificationRuns "docs" bareBucket twoCreations).init schedule).2 =
        [.created (webhookRule "a"), .created (webhookRule "b")] := by
  decide

theorem twoCreations_lose : ∀ schedule ∈ [crossed, blindly],
    ¬(notificationRuns "docs" bareBucket twoCreations).AllStates (RulesKept "docs")
      (notificationRuns "docs" bareBucket twoCreations).init schedule := by
  intro schedule hmem hall
  obtain ⟨hrules, hledger⟩ := twoCreations_end schedule hmem
  have hstanding : Standing NotificationRule.id
      [.created (webhookRule "a"), .created (webhookRule "b")] (webhookRule "a") :=
    ⟨[], [.created (webhookRule "b")], rfl, by simp⟩
  have hmissing : webhookRule "a" ∉ [webhookRule "b"] := by decide
  have hlast := hall.after.standing (webhookRule "a")
  rw [hrules, hledger] at hlast
  exact hmissing (hlast hstanding)

/-- In both schedules a handler writes back what is no longer current. -/
theorem rulesKept_iff_readIsCurrent_twoCreations :
    ¬(notificationRuns "docs" bareBucket twoCreations).AllSteps
        (ReadIsCurrent "docs" twoCreations)
        (notificationRuns "docs" bareBucket twoCreations).init crossed ∧
      ¬(notificationRuns "docs" bareBucket twoCreations).AllSteps
        (ReadIsCurrent "docs" twoCreations)
        (notificationRuns "docs" bareBucket twoCreations).init blindly := by
  constructor
  · intro hguard
    exact twoCreations_lose crossed (by simp)
      ((rulesKept_iff_readIsCurrent Keyed.nil twoCreations crossed).mpr hguard)
  · intro hguard
    exact twoCreations_lose blindly (by simp)
      ((rulesKept_iff_readIsCurrent Keyed.nil twoCreations blindly).mpr hguard)

/-- **A rule whose creation was answered 201 is lost.** -/
theorem createdRule_lost :
    ¬ ∀ (bucket : String) (w : NotificationWorld), Keyed NotificationRule.id (w.rules bucket) →
      ∀ (requests : List NotificationRequest) (schedule : List (Turn DatabaseEvent)),
        (notificationRuns bucket w requests).AllStates (RulesKept bucket)
          (notificationRuns bucket w requests).init schedule := by
  intro h
  exact twoCreations_lose crossed (by simp)
    (h "docs" bareBucket Keyed.nil twoCreations crossed)

end Strix

import SecretSync.Proofs.Cluster.Separate
import SecretSync.Proofs.Operator.Contained
import SecretSync.Proofs.Operator.Counting
import SecretSync.Proofs.Operator.Making

/-!
The counters of an operator against its journal: what was counted is what the record tells, whatever the
operator was called for and whatever failed. Main statement: `Operator.counters_of_journal`.
-/

namespace SecretSync.Operator

variable {τ κ : Type} [Timeline τ]
variable {api : Api κ} {settings : Settings τ} {body : Value} {m m₁ m' : Memory τ} {w w₁ w' : World τ κ}

-- The call of `handle` that a job comes to.
inductive Entry.Handles (api : Api κ) : Entry τ κ → Value → World τ κ → Prop
  | handle {body : Value} {m m' : Memory τ} {w w' : World τ κ} {r : Result (Action τ)} :
      Handles api ⟨.handle body, m, w, r, m', w'⟩ body w
  | fetched {id : ResourceId} {body : Value} {m m' : Memory τ} {w w₁ w' : World τ κ} {r : Result (Action τ)}
      (read : Fetches api m w id (.ok body) w₁)
      (before : w₁.Before w') :
      Handles api ⟨.resync id, m, w, r, m', w'⟩ body w₁
  | reacted {event body kind : Value} {m m' : Memory τ} {w w' : World τ κ} {r : Result (Action τ)}
      (told : event.member "type" = .ok kind) (other : kind.same deleted = false) :
      Handles api ⟨.react event body, m, w, r, m', w'⟩ body w

namespace Entry

variable {e : Entry τ κ}

omit [Timeline τ] in
theorem Handles.unique {body' : Value} (h : e.Handles api body w) (h' : e.Handles api body' w') :
    body = body' ∧ w = w' := by
  cases h with
  | handle =>
    cases h'
    exact ⟨rfl, rfl⟩
  | fetched read before =>
    cases h' with
    | fetched read' before' =>
      have ⟨same, _, sameWorld⟩ := read.unique_of_before read' before before'
      exact ⟨Except.ok.inj same, sameWorld⟩
  | reacted =>
    cases h'
    exact ⟨rfl, rfl⟩

-- The body that was handled could be read.
def Reads (api : Api κ) (e : Entry τ κ) : Prop :=
  ∃ body w d, e.Handles api body w ∧ Declaration.ofBody body = .ok d

-- The call ended in the error policy: the handling did, or the resource could not be fetched and is not gone.
inductive Falters (api : Api κ) (settings : Settings τ) : Entry τ κ → Prop
  | handled {e : Entry τ κ} {body : Value} {w : World τ κ} (handles : e.Handles api body w)
      (faltered : Faltered api settings body e.before w e.last) : Falters api settings e
  | unfetched {id : ResourceId} {fault : Fault} {status : Int} {m m' : Memory τ} {w w₁ w' : World τ κ}
      {r : Result (Action τ)}
      (refused : Fetches api m w id (.error fault) w₁)
      (before : w₁.Before w') (told : fault.status? = some status) (other : status ≠ 404) :
      Falters api settings ⟨.resync id, m, w, r, m', w'⟩

-- A fetched resource was not refused.
theorem Handles.falters_iff (h : e.Handles api body w) :
    e.Falters api settings ↔ Faltered api settings body e.before w e.last := by
  constructor
  case mp =>
    intro falters
    cases falters with
    | handled handles faltered =>
      obtain ⟨same, sameWorld⟩ := h.unique handles
      subst same sameWorld
      exact faltered
    | unfetched refused before =>
      cases h with
      | fetched read before' => cases (read.unique_of_before refused before' before).left
  case mpr => exact .handled h

omit [Timeline τ] in
theorem Handles.reads_iff (h : e.Handles api body w) :
    e.Reads api ↔ ∃ d, Declaration.ofBody body = .ok d := by
  constructor
  case mp =>
    intro ⟨_, _, d, handles, readable⟩
    exact ⟨d, (h.unique handles).left ▸ readable⟩
  case mpr => exact fun ⟨d, readable⟩ => ⟨body, w, d, h, readable⟩

-- What one call has counted.
open Classical in
structure Accounted (api : Api κ) (settings : Settings τ) (e : Entry τ κ) : Prop where
  counted : Counted (if e.Reads api then 1 else 0) (if e.Falters api settings then 1 else 0)
    e.before e.first e.after e.last
  apart   : e.Falters api settings → e.first.Unfilled e.last

theorem Handles.accounted (h : e.Handles api body w) (first : Counted 0 0 e.before e.first e.before w)
    (unfilled : e.first.Unfilled w) (handling : Handling api settings body e.before w e.after e.last) :
    e.Accounted api settings := by
  have reads := h.reads_iff
  have falters : e.Falters api settings ↔ _ := h.falters_iff
  cases handling
  case raised unreadable unnamed counted =>
    have unread : ¬e.Reads api := by simp [reads, unreadable]
    have sound : ¬e.Falters api settings := by
      rw [falters]
      intro faltered
      cases faltered
      case unread named => exact unnamed named
      case failed readable _ _ => simp [unreadable] at readable
    constructor
    case counted => simpa [unread, sound] using first.trans counted
    case apart => exact fun failed => absurd failed sound
  case unread unreadable named counted =>
    have unread : ¬e.Reads api := by simp [reads, unreadable]
    have failed : e.Falters api settings := falters.mpr (.unread unreadable named)
    constructor
    case counted => simpa [unread, failed] using first.trans counted.left
    case apart => exact fun _ => unfilled.trans counted.right
  case reconciled d _ _ _ readable run before counted =>
    have read : e.Reads api := reads.mpr ⟨d, readable⟩
    have sound : ¬e.Falters api settings := by
      rw [falters]
      intro faltered
      cases faltered
      case unread unreadable _ => simp [readable] at unreadable
      case failed readable' run' before' =>
        cases readable.symm.trans readable'
        cases (run.unique_of_before run' before before').left
    constructor
    case counted => simpa [read, sound] using first.trans counted
    case apart => exact fun failed => absurd failed sound
  case failed d _ _ _ readable run before counted =>
    have read : e.Reads api := reads.mpr ⟨d, readable⟩
    have failed : e.Falters api settings := falters.mpr (.failed readable run before)
    constructor
    case counted => simpa [read, failed] using first.trans counted.left
    case apart => exact fun _ => unfilled.trans counted.right

-- A call that comes to no handling and ends well has filled nothing that would have to be counted.
theorem Accounted.of_quiet (idle : ∀ body w, ¬e.Handles api body w) (sound : ¬e.Falters api settings)
    (counted : Counted 0 0 e.before e.first e.after e.last) : e.Accounted api settings := by
  have unread : ¬e.Reads api := fun ⟨body, w, _, handles, _⟩ => idle body w handles
  constructor
  case counted => simpa [unread, sound] using counted
  case apart => exact fun failed => absurd failed sound

theorem not_falters_of_idle (idle : ∀ body w, ¬e.Handles api body w) (fetches : ∀ id, e.job ≠ .resync id) :
    ¬e.Falters api settings := by
  intro falters
  cases falters with
  | handled handles => exact idle _ _ handles
  | unfetched => exact fetches _ rfl

theorem Accounted.of_retry (idle : ∀ body w, ¬e.Handles api body w) (falters : e.Falters api settings)
    (counted : Counted 0 1 e.before e.first e.after e.last) (apart : e.first.Unfilled e.last) :
    e.Accounted api settings := by
  have unread : ¬e.Reads api := fun ⟨body, w, _, handles, _⟩ => idle body w handles
  constructor
  case counted => simpa [unread, falters] using counted
  case apart => exact fun _ => apart

section

variable {id : ResourceId} {fault : Fault} {r : Result (Action τ)}
  (refused : Fetches api m w id (.error fault) w₁)
  (before : w₁.Before w')
include refused before

omit [Timeline τ] in
theorem not_handles_of_refused {v : World τ κ} :
    ¬Entry.Handles api ⟨.resync id, m, w, r, m', w'⟩ body v := by
  intro handles
  cases handles with
  | fetched read before' => cases (read.unique_of_before refused before' before).left

theorem falters_iff_of_refused :
    Entry.Falters api settings ⟨.resync id, m, w, r, m', w'⟩ ↔
      ∃ status, fault.status? = some status ∧ status ≠ 404 := by
  constructor
  case mp =>
    intro falters
    cases falters with
    | handled handles => exact absurd handles (not_handles_of_refused refused before)
    | unfetched refused' before' told other =>
      cases (refused.unique_of_before refused' before before').left
      exact ⟨_, told, other⟩
  case mpr => exact fun ⟨_, told, other⟩ => .unfetched refused before told other

end
end Entry

section

variable {soon : τ} (requeues : settings.requeueAfter = .lasting soon)
include requeues

theorem handle_accounted {r : Result (Action τ)} (run : (handle settings body).Run api m w r m' w') :
    Entry.Accounted api settings ⟨.handle body, m, w, r, m', w'⟩ :=
  Entry.Handles.handle.accounted ⟨rfl, rfl, rfl, rfl⟩ ⟨rfl, rfl⟩ (handle_handling requeues run)

theorem resync_accounted (id : ResourceId) : ∀ r m' w', (resync settings id).Run api m w r m' w' →
    Entry.Accounted api settings ⟨.resync id, m, w, r, m', w'⟩ := by
  refine Op.ensures_iff_forall.mp ?_
  have asks : (Op.cluster (.getObject id) : Op τ (Memory τ) Value).Asks fun call => ¬call.Fills := .cluster nofun
  -- The error policy is not gone through, unless the cluster tells another reason than that nothing is there.
  have quiet {fault : Fault} {r : Result (Action τ)} {m' : Memory τ} {w₁ w' : World τ κ}
      (failed : Fetches api m w id (.error fault) w₁)
      (before : w₁.Before w') (counted : Counted 0 0 m w₁ m' w')
      (gone : ∀ status, fault.status? = some status → status = 404) :
      Entry.Accounted api settings ⟨.resync id, m, w, r, m', w'⟩ := by
    apply Entry.Accounted.of_quiet
    case idle => exact fun _ _ => Entry.not_handles_of_refused failed before
    case sound =>
      rw [Entry.falters_iff_of_refused failed before]
      rintro ⟨status, told, other⟩
      exact other (gone status told)
    case counted => exact ((asks.unfilled failed).counted rfl).trans counted
  apply resync_ensures
  case fetched =>
    intro body w₁ read
    have unfilled := asks.unfilled read
    apply (Op.Ensures.of_run (handle settings body) m w₁).mono
    all_goals
      exact fun _ _ _ run => (Entry.Handles.fetched read run.before).accounted (unfilled.counted rfl) unfilled
        (handle_handling requeues run)
  case gone =>
    intro fault w₁ failed missing
    have gone (status : Int) (told : fault.status? = some status) : status = 404 :=
      Option.some.inj (told.symm.trans missing)
    apply (Op.Ensures.of_run (dismiss id) m w₁).mono
    all_goals
      exact fun _ _ _ run =>
        quiet failed run.before (.of_run (dismiss_asks id) (dismiss_leaves id) run) gone
  case refused =>
    intro fault w₁ status failed told other
    have unfilled := asks.unfilled failed
    have retried {r : Result (Action τ)} {m' : Memory τ} {w' : World τ κ} (before : w₁.Before w')
        (policy : Reconcile.CountedApart 0 1 m w₁ m' w') :
        Entry.Accounted api settings ⟨.resync id, m, w, r, m', w'⟩ := by
      apply Entry.Accounted.of_retry
      case idle => exact fun _ _ => Entry.not_handles_of_refused failed before
      case falters => exact .unfetched failed before told other
      case counted => exact (unfilled.counted rfl).trans policy.left
      case apart => exact unfilled.trans policy.right
    apply ((Op.Ensures.of_run (retry settings id) m w₁).and (retry_counted id)).mono
    all_goals
      rintro _ _ _ ⟨run, policy⟩
      exact retried run.before policy
  case lost =>
    intro fault w₁ failed lost
    apply quiet failed (.refl w₁) ⟨rfl, rfl, rfl, rfl⟩
    intro status told
    cases told.symm.trans lost

theorem reaction_accounted (event body : Value) : ∀ r m' w', (reaction settings event body).Run api m w r m' w' →
    Entry.Accounted api settings ⟨.react event body, m, w, r, m', w'⟩ := by
  have quiet {r : Result (Action τ)} {m' : Memory τ} {w' : World τ κ} (counted : Counted 0 0 m w m' w')
      (idle : ∀ kind, event.member "type" = .ok kind → kind.same deleted = true) :
      Entry.Accounted api settings ⟨.react event body, m, w, r, m', w'⟩ := by
    have idle (body' : Value) (v : World τ κ) :
        ¬Entry.Handles api ⟨.react event body, m, w, r, m', w'⟩ body' v := by
      intro handles
      cases handles with
      | reacted told other => simp [idle _ told] at other
    exact Entry.Accounted.of_quiet idle (Entry.not_falters_of_idle idle nofun) counted
  refine Op.ensures_iff_forall.mp ?_
  apply Op.Ensures.bind_ofResult
  case hfail => exact fun _ missing => quiet ⟨rfl, rfl, rfl, rfl⟩ fun _ told => by simp [told] at missing
  intro kind told
  split
  case isTrue same =>
    have idle (kind' : Value) (told' : event.member "type" = .ok kind') : kind'.same deleted = true :=
      Except.ok.inj (told.symm.trans told') ▸ same
    have asks : (dismissNamed body : Op τ (Memory τ) (Action τ)).Asks fun call => ¬call.Fills :=
      .bind (.ofResult _) fun _ => .bind (.ofResult _) fun _ => .bind (.ofResult _) fun _ => dismiss_asks _
    have leaves : (dismissNamed body : Op τ (Memory τ) (Action τ)).Leaves Memory.counters :=
      .bind (.ofResult _) fun _ => .bind (.ofResult _) fun _ => .bind (.ofResult _) fun _ => dismiss_leaves _
    apply (Op.Ensures.of_run (dismissNamed body) m w).mono
    all_goals exact fun _ _ _ run => quiet (.of_run asks leaves run) idle
  case isFalse other =>
    apply (Op.Ensures.of_run (handle settings body) m w).mono
    all_goals
      exact fun _ _ _ run => (Entry.Handles.reacted told (Bool.eq_false_iff.mpr other)).accounted
        ⟨rfl, rfl, rfl, rfl⟩ ⟨rfl, rfl⟩ (handle_handling requeues run)

theorem accounted_of_run {job : Job τ} {r : Result (Action τ)} (run : (job.op settings).Run api m w r m' w') :
    Entry.Accounted api settings ⟨job, m, w, r, m', w'⟩ := by
  cases job
  case handle body => exact handle_accounted requeues run
  case resync id => exact resync_accounted requeues id _ _ _ run
  case react event body => exact reaction_accounted requeues event body _ _ _ run
  case schedule id action =>
    have idle (body : Value) (v : World τ κ) :
        ¬Entry.Handles api ⟨.schedule id action, m, w, r, m', w'⟩ body v := nofun
    apply Entry.Accounted.of_quiet idle (Entry.not_falters_of_idle idle nofun)
    refine Counted.of_run ?asks ?leaves run
    case asks => exact .bind (schedule_asks nofun id action) fun _ => .pure _
    case leaves => exact .bind (schedule_leavesCounters id action) fun _ => .pure _
  case forget id =>
    have idle (body : Value) (v : World τ κ) : ¬Entry.Handles api ⟨.forget id, m, w, r, m', w'⟩ body v := nofun
    apply Entry.Accounted.of_quiet idle (Entry.not_falters_of_idle idle nofun)
    exact Counted.of_run (dismiss_asks id) (dismiss_leaves id) run

-- All that was done before is added up.
open Classical in
structure Balanced (api : Api κ) (settings : Settings τ) (entries : List (Entry τ κ)) (m : Memory τ)
    (w : World τ κ) : Prop where
  reconciliations : m.counters.reconciliations = entries.countP fun e => e.Reads api
  failures        : m.counters.failures = entries.countP fun e => e.Falters api settings
  creates         : m.counters.creates = w.creations
  updates         : m.counters.updates = w.amendments

omit requeues in
theorem Balanced.after {entries : List (Entry τ κ)} {e : Entry τ κ}
    (h : Balanced api settings entries e.before e.first) (accounted : e.Accounted api settings) :
    Balanced api settings (e :: entries) e.after e.last := by
  have ⟨counted, _⟩ := accounted
  constructor
  case reconciliations =>
    rw [counted.reconciliations, h.reconciliations, List.countP_cons]
    by_cases reads : e.Reads api
    all_goals simp [reads]
  case failures =>
    rw [counted.failures, h.failures, List.countP_cons]
    by_cases falters : e.Falters api settings
    all_goals simp [falters]
  case creates =>
    have := counted.creates
    have := h.creates
    omega
  case updates =>
    have := counted.updates
    have := h.updates
    omega

omit requeues in
theorem Entry.Accounted.apart_of_lt {e : Entry τ κ} (h : e.Accounted api settings)
    (failed : e.before.counters.failures < e.after.counters.failures) :
    e.after.counters.creates = e.before.counters.creates ∧
      e.after.counters.updates = e.before.counters.updates := by
  have counted := h.counted
  have falters : e.Falters api settings := by
    have := counted.failures
    split at this
    case isTrue falters => exact falters
    case isFalse => omega
  have ⟨creations, amendments⟩ := h.apart falters
  have := counted.creates
  have := counted.updates
  omega

-- No call adds both to the failures and to the creations or patches.
theorem counters_of_journal {between : κ → κ → Prop} {start : κ} {entries : List (Entry τ κ)}
    (h : Journal settings api between start entries m w) :
    Balanced api settings entries m w ∧ ∀ e ∈ entries, e.before.counters.failures < e.after.counters.failures →
      e.after.counters.creates = e.before.counters.creates ∧
      e.after.counters.updates = e.before.counters.updates := by
  induction h
  case blank =>
    constructor
    case left => exact ⟨rfl, rfl, rfl, rfl⟩
    case right => simp
  case changed hi =>
    have ⟨balanced, apart⟩ := hi
    exact ⟨⟨balanced.reconciliations, balanced.failures, balanced.creates, balanced.updates⟩, apart⟩
  case done run hi =>
    have accounted := accounted_of_run requeues run
    constructor
    case left => exact hi.left.after accounted
    case right => exact List.forall_mem_cons.mpr ⟨accounted.apart_of_lt, hi.right⟩

end

def countedCluster : { c : Cluster // c.IsDistinct } :=
  ⟨guardedStart "SSM", trivial, rfl, trivial⟩

-- A body that cannot be read is counted as a failure, and the secret that is made after that as a creation.
theorem counters_of_journal_created : ∃ (entries : List (Entry Int Unit)) (m : Memory Int) (w : World Int Unit),
    Journal Settings.inSeconds .any (fun _ _ => True) () entries m w ∧ entries.length = 2 ∧
      m.counters = ⟨1, 1, 1, 0, 1⟩ ∧ w.creations = 1 ∧ w.amendments = 0 := by
  let responder := Cluster.standing (fun _ => none) Content.oneParameter
  have ⟨m₁, x₁, m₂, x₂, first, second, counted⟩ : ∃ m₁ x₁ m₂ x₂,
      (handle Settings.inSeconds markedBody).answered responder .start countedCluster =
        ((.ok (.requeue 300), m₁), x₁) ∧
      (handle Settings.inSeconds (guardedBody "SSM")).answered responder m₁ x₁ = ((.ok (.requeue 20), m₂), x₂) ∧
      m₂.counters = ⟨1, 1, 1, 0, 1⟩ :=
    ⟨_, _, _, _, rfl, rfl, rfl⟩
  have ⟨w₁, run₁⟩ := Op.exists_run responder (⟨(), []⟩ : World Int Unit) first
  have ⟨w₂, run₂⟩ := Op.exists_run responder w₁ second
  have failed : ((Job.handle markedBody).op Settings.inSeconds).Run .any .start ⟨(), []⟩ _ m₁ w₁ := run₁
  have created : ((Job.handle (guardedBody "SSM")).op Settings.inSeconds).Run .any m₁ w₁ _ m₂ w₂ := run₂
  have empty : Journal Settings.inSeconds Api.any (fun _ _ => True) () [] .start ⟨(), []⟩ := .blank
  have journal := Journal.done (.done empty failed) created
  have ⟨balanced, _⟩ := counters_of_journal rfl journal
  refine ⟨_, m₂, w₂, journal, rfl, counted, ?_, ?_⟩
  · rw [← balanced.creates, counted]
  · rw [← balanced.updates, counted]

end SecretSync.Operator

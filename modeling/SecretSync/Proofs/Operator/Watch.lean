import Mathlib.Tactic.Linarith
import SecretSync.Proofs.Cluster.Body
import SecretSync.Proofs.Operator.Journal
import SecretSync.Proofs.Time.Exact

/-!
Resources that are watched: the loop waits in short steps until a resource is due, and reconciles it just then. Main
statement: `watch_punctual`.
-/

namespace SecretSync.Operator

open ExactTimeline (number number_zero number_add number_sub number_seconds number_lt_iff number_le_iff
  number_atLeastZero number_atMost number_injective)

variable {τ ς : Type}

-- What is remembered at some time, and what has become of the responder by then.
structure Moment (τ ς : Type) where
  memory  : Memory τ
  outside : ς

-- What the loop does at one look at the schedule.
inductive Turn (τ : Type) where
  | waits (d : τ)
  | resyncs (r : Result (Action τ))

-- A look at the schedule, with the moments between which all of it happens.
structure Visit (τ ς : Type) where
  before : Moment τ ς
  turn   : Turn τ
  after  : Moment τ ς

-- How the loop ends after a turn, unless it goes on.
def Turn.end? : Turn τ → Option (Result Unit)
  | waits _ => none
  | resyncs (.ok (.requeue _)) => none
  | resyncs (.ok .awaitChange) => some (.ok ())
  | resyncs (.error fault) => some (.error fault)

section

variable [Timeline τ] (responder : Responder τ ς) (id : ResourceId) (resync : Op τ (Memory τ) (Action τ))

-- What the schedule tells of the time that is left.
def Moment.timeLeft (a : Moment τ ς) : Result τ :=
  (untilDue id).result responder a.memory a.outside

-- The resource is left alone just while there is time.
inductive Takes (a : Moment τ ς) : Turn τ → Moment τ ς → Prop
  | waits {left : τ} (told : a.timeLeft responder id = .ok left) (early : Timeline.zero < left) :
    Takes a (.waits (Timeline.atMost pollInterval left))
      ⟨a.memory, (responder (.wait (Timeline.atMost pollInterval left)) a.outside).2⟩
  | resyncs {left : τ} {r : Result (Action τ)} {b : Moment τ ς} (told : a.timeLeft responder id = .ok left)
    (due : ¬Timeline.zero < left) (ran : resync.answered responder a.memory a.outside = ((r, b.memory), b.outside)) :
    Takes a (.resyncs r) b

-- The turns of a loop that is stopped after so many looks, if it has not ended by then.
inductive Course : Nat → Moment τ ς → List (Visit τ ς) → Result Unit → Moment τ ς → Prop
  | stopped {a : Moment τ ς} : Course 0 a [] (.ok ()) a
  | goesOn {looks : Nat} {a b c : Moment τ ς} {turn : Turn τ} {visits : List (Visit τ ς)} {r : Result Unit}
    (takes : Takes responder id resync a turn b) (further : turn.end? = none) (rest : Course looks b visits r c) :
    Course (looks + 1) a (⟨a, turn, b⟩ :: visits) r c
  | ends {looks : Nat} {a b : Moment τ ς} {turn : Turn τ} {r : Result Unit} (takes : Takes responder id resync a turn b)
    (closed : turn.end? = some r) : Course (looks + 1) a [⟨a, turn, b⟩] r b

variable (clock : ς → τ)

-- Whoever is told to come back after some time finds that the resource is due by then.
def Reschedules : Prop :=
  ∀ {m m' : Memory τ} {o o' : ς} {after : τ}, resync.answered responder m o = ((.ok (.requeue after), m'), o') →
    m'.due.get? id = some (clock o' + after)

-- First there is only waiting, no more than it takes for so much time to pass. Then it is reconciled at just this time,
-- unless all looks at the schedule are used up.
inductive Resumes (time left : τ) (looks : Nat) : List (Visit τ ς) → Result Unit → Prop
  | stopped {waits : List (Visit τ ς)} (each : ∀ w ∈ waits, ∃ d, w.turn = .waits d)
    (needed : ∀ k < waits.length, Timeline.seconds (5 * k) < left) (all : waits.length = looks) :
    Resumes time left looks waits (.ok ())
  | resynced {waits others : List (Visit τ ς)} {next : Visit τ ς} {r : Result Unit} {r' : Result (Action τ)}
    (each : ∀ w ∈ waits, ∃ d, w.turn = .waits d) (needed : ∀ k < waits.length, Timeline.seconds (5 * k) < left)
    (turn : next.turn = .resyncs r') (punctual : clock next.before.outside = time) :
    Resumes time left looks (waits ++ next :: others) r

-- Nothing is done too early, and nothing too late.
structure Punctual (looks : Nat) (visits : List (Visit τ ς)) (r : Result Unit) : Prop where
  due   : ∀ v ∈ visits, ∀ r', v.turn = .resyncs r' → v.before.timeLeft responder id = .ok Timeline.zero
  early : ∀ v ∈ visits, ∀ d, v.turn = .waits d → ∃ time left, v.before.memory.due.get? id = some time ∧
    v.before.timeLeft responder id = .ok left ∧ Timeline.zero < d ∧ d ≤ pollInterval ∧ d ≤ left ∧
    clock v.after.outside ≤ time
  again : Reschedules responder id resync clock → ∀ earlier v later after, visits = earlier ++ v :: later →
    v.turn = .resyncs (.ok (.requeue after)) → Timeline.zero ≤ after →
    Resumes clock (clock v.after.outside + after) after (looks - (earlier.length + 1)) later r
  ends  : ∀ earlier v later, visits = earlier ++ v :: later → v.turn = .resyncs (.ok .awaitChange) →
    later = [] ∧ r = .ok ()

variable {responder id resync clock} {looks : Nat} {a b c : Moment τ ς} {visits : List (Visit τ ς)} {r : Result Unit}

theorem Course.takes (course : Course responder id resync looks a visits r c) :
    ∀ v ∈ visits, Takes responder id resync v.before v.turn v.after := by
  induction course
  case stopped => exact List.forall_mem_nil _
  case goesOn takes _ _ hi => exact List.forall_mem_cons.mpr ⟨takes, hi⟩
  case ends takes _ => exact List.forall_mem_singleton.mpr takes

-- From each turn that does not end the loop the course goes on.
theorem Course.split {earlier later : List (Visit τ ς)} {v : Visit τ ς}
    (course : Course responder id resync looks a (earlier ++ v :: later) r c) :
    (v.turn.end? = none ∧ Course responder id resync (looks - (earlier.length + 1)) v.after later r c) ∨
      v.turn.end? = some r ∧ later = [] := by
  induction earlier generalizing looks a with
  | nil =>
    cases course with
    | goesOn _ further rest => exact .inl ⟨further, rest⟩
    | ends _ closed => exact .inr ⟨closed, rfl⟩
  | cons first earlier hi =>
    rw [List.cons_append] at course
    generalize followed : earlier ++ v :: later = visits at course hi
    cases course with
    | goesOn _ _ rest => simpa using hi rest
    | ends => exact absurd followed (List.append_ne_nil_of_right_ne_nil _ (List.cons_ne_nil _ _))

end

section

variable [Timeline τ] {responder : Responder τ ς} {id : ResourceId} {resync : Op τ (Memory τ) (Action τ)}
  {clock : ς → τ} (timed : responder.Times clock) {m : Memory τ} {o : ς}
include timed

theorem answered_untilDue_of_some {time : τ} (due : m.due.get? id = some time) :
    (untilDue id).answered responder m o = ((.ok (Timeline.atLeastZero (time - clock o)), m), o) := by
  simp only [untilDue, Op.answered_bind, Op.answered_get, due, Op.answered_now, timed.now, Op.answered_pure]

omit timed in
theorem answered_untilDue_of_none (free : m.due.get? id = none) :
    (untilDue id).answered responder m o = ((.ok Timeline.zero, m), o) := by
  simp only [untilDue, Op.answered_bind, Op.answered_get, free, Op.answered_pure]

theorem exists_answered_untilDue (id : ResourceId) (m : Memory τ) (o : ς) :
    ∃ left, (untilDue id).answered responder m o = ((.ok left, m), o) := by
  cases due : m.due.get? id
  case none => exact ⟨_, answered_untilDue_of_none due⟩
  case some => exact ⟨_, answered_untilDue_of_some timed due⟩

theorem exists_course (id : ResourceId) (resync : Op τ (Memory τ) (Action τ)) (looks : Nat) (m : Memory τ) (o : ς) :
    let ended := (watchWith resync id looks).answered responder m o
    ∃ visits, Course responder id resync looks ⟨m, o⟩ visits ended.1.1 ⟨ended.1.2, ended.2⟩ := by
  dsimp only
  induction looks generalizing m o
  case zero => exact ⟨[], .stopped⟩
  case succ looks hi =>
    have ⟨left, told⟩ := exists_answered_untilDue timed id m o
    have known : Moment.timeLeft responder id ⟨m, o⟩ = .ok left := by rw [Moment.timeLeft, Op.result, told]
    rw [watchWith, Op.answered_bind, told]
    dsimp only
    split
    case isTrue early =>
      rw [Op.answered_bind, Op.answered_wait]
      obtain ⟨visits, rest⟩ := hi m (responder (.wait (Timeline.atMost pollInterval left)) o).2
      exact ⟨_, .goesOn (.waits known early) rfl rest⟩
    case isFalse due =>
      rw [Op.answered_bind]
      rcases ran : resync.answered responder m o with ⟨⟨fault | after | _, m'⟩, o'⟩
      case error => exact ⟨_, .ends (.resyncs known due ran) rfl⟩
      case ok.requeue =>
        obtain ⟨visits, rest⟩ := hi m' o'
        exact ⟨_, .goesOn (.resyncs known due ran) rfl rest⟩
      case ok.awaitChange => exact ⟨_, .ends (.resyncs known due ran) rfl⟩

end

-- What is waited for is that a resource is due.
structure Waits [ExactTimeline τ] (responder : Responder τ ς) (id : ResourceId) (clock : ς → τ) (a : Moment τ ς) (d : τ)
    (b : Moment τ ς) (time : τ) : Prop where
  due    : a.memory.due.get? id = some time
  early  : number (clock a.outside) < number time
  left   : a.timeLeft responder id = .ok (time - clock a.outside)
  length : number d = min 5 (number time - number (clock a.outside))
  memory : b.memory = a.memory
  later  : clock b.outside = clock a.outside + d

namespace Resumes

variable [ExactTimeline τ] {clock : ς → τ} {looks : Nat} {visits : List (Visit τ ς)} {r : Result Unit}
  {time d left : τ} {v : Visit τ ς}

theorem needed_succ {n : Nat} (positive : 0 < number left) (length : number d = min 5 (number left))
    (needed : ∀ k < n, (Timeline.seconds (5 * k) : τ) < left - d) :
    ∀ k < n + 1, (Timeline.seconds (5 * k) : τ) < left := by
  intro k h
  apply number_lt_iff.mp
  rw [number_seconds]
  cases k
  case zero => simpa using positive
  case succ k =>
    have before := number_lt_iff.mpr (needed k (Nat.lt_of_succ_lt_succ h))
    rw [number_seconds, number_sub, length] at before
    push_cast at before ⊢
    have nonneg : (0 : ℝ) ≤ k := k.cast_nonneg
    -- A wait that is shorter than five seconds is the last one.
    rcases min_choice 5 (number left) with whole | rest
    case inl => linarith
    case inr => linarith

theorem wait (turn : v.turn = .waits d) (positive : 0 < number left) (length : number d = min 5 (number left))
    (h : Resumes clock time (left - d) looks visits r) : Resumes clock time left (looks + 1) (v :: visits) r := by
  have first : ∃ d, v.turn = .waits d := ⟨d, turn⟩
  cases h with
  | stopped each needed all =>
    exact .stopped (List.forall_mem_cons.mpr ⟨first, each⟩) (needed_succ positive length needed) (congrArg _ all)
  | resynced each needed turn' punctual =>
    rw [← List.cons_append]
    exact .resynced (List.forall_mem_cons.mpr ⟨first, each⟩) (needed_succ positive length needed) turn' punctual

theorem at_once {r' : Result (Action τ)} (turn : v.turn = .resyncs r') (punctual : clock v.before.outside = time) :
    Resumes clock time left looks (v :: visits) r := by
  rw [← List.nil_append (v :: visits)]
  exact .resynced (List.forall_mem_nil _) (fun _ h => absurd h (Nat.not_lt_zero _)) turn punctual

end Resumes

section

variable [ExactTimeline τ] {responder : Responder τ ς} {id : ResourceId} {resync : Op τ (Memory τ) (Action τ)}
  {clock : ς → τ} (timed : responder.Times clock) {looks : Nat} {a b c : Moment τ ς} {visits : List (Visit τ ς)}
  {r : Result Unit} {time left : τ}
include timed

theorem Moment.timeLeft_cases (told : a.timeLeft responder id = .ok left) : left = Timeline.zero ∨
    ∃ time, a.memory.due.get? id = some time ∧ left = Timeline.atLeastZero (time - clock a.outside) := by
  rw [timeLeft, Op.result] at told
  cases due : a.memory.due.get? id
  case none =>
    rw [answered_untilDue_of_none due] at told
    exact .inl (Except.ok.inj told).symm
  case some time =>
    rw [answered_untilDue_of_some timed due] at told
    exact .inr ⟨time, rfl, (Except.ok.inj told).symm⟩

-- It is reconciled when there is no time left.
theorem Takes.timeLeft_eq {r : Result (Action τ)} (takes : Takes responder id resync a (.resyncs r) b) :
    a.timeLeft responder id = .ok Timeline.zero := by
  cases takes with
  | @resyncs left _ _ told late ran =>
    rcases Moment.timeLeft_cases timed told with rfl | ⟨time, _, rfl⟩
    case inl => exact told
    case inr =>
      rw [told]
      refine congrArg _ (number_injective (le_antisymm ?_ ?_))
      case refine_1 => exact not_lt.mp fun early => late (number_lt_iff.mp early)
      case refine_2 =>
        rw [number_zero, number_atLeastZero]
        exact le_max_left _ _

theorem Takes.le_clock {r : Result (Action τ)} (takes : Takes responder id resync a (.resyncs r) b)
    (due : a.memory.due.get? id = some time) : number time ≤ number (clock a.outside) := by
  have told := takes.timeLeft_eq timed
  rw [Moment.timeLeft, Op.result, answered_untilDue_of_some timed due] at told
  have clamped := congrArg number (Except.ok.inj told)
  rw [number_atLeastZero, number_zero, number_sub] at clamped
  linarith [le_max_right 0 (number time - number (clock a.outside))]

theorem Takes.exists_waits {d : τ} (takes : Takes responder id resync a (.waits d) b) :
    ∃ time, Waits responder id clock a d b time := by
  cases takes with
  | @waits left told early =>
    rw [← number_lt_iff, number_zero] at early
    rcases Moment.timeLeft_cases timed told with rfl | ⟨time, due, rfl⟩
    case inl => exact absurd early number_zero.not_gt
    case inr =>
      have positive : 0 < number (time - clock a.outside) := by
        rw [number_atLeastZero] at early
        exact (lt_max_iff.mp early).resolve_left (lt_irrefl 0)
      have same : Timeline.atLeastZero (time - clock a.outside) = time - clock a.outside := by
        apply number_injective
        rw [number_atLeastZero]
        exact max_eq_right positive.le
      rw [same] at told ⊢
      rw [number_sub] at positive
      refine ⟨time, due, sub_pos.mp positive, told, ?_, rfl, timed.wait _ _⟩
      rw [number_atMost, number_sub, pollInterval, number_seconds, Nat.cast_ofNat]

-- From any moment at which a resource is scheduled for later, it is waited until then.
theorem Course.resumes (course : Course responder id resync looks a visits r c)
    (due : a.memory.due.get? id = some time) (ahead : number (clock a.outside) ≤ number time) :
    Resumes clock time (time - clock a.outside) looks visits r := by
  have reached {a b : Moment τ ς} {r : Result (Action τ)} (takes : Takes responder id resync a (.resyncs r) b)
      (due : a.memory.due.get? id = some time) (ahead : number (clock a.outside) ≤ number time) :
      clock a.outside = time :=
    number_injective (le_antisymm ahead (takes.le_clock timed due))
  induction course with
  | stopped => exact .stopped (List.forall_mem_nil _) (fun _ h => absurd h (Nat.not_lt_zero _)) rfl
  | @ends looks a b turn r takes closed =>
    cases turn
    case waits => cases closed
    case resyncs => exact .at_once rfl (reached takes due ahead)
  | @goesOn looks a b c turn visits r takes _ _ hi =>
    cases turn with
    | resyncs => exact .at_once rfl (reached takes due ahead)
    | waits d =>
      obtain ⟨_, waits⟩ := takes.exists_waits timed
      cases due.symm.trans waits.due
      have length : number d = min 5 (number (time - clock a.outside)) := by rw [waits.length, number_sub]
      have moved : number (clock b.outside) = number (clock a.outside) + number d := by
        rw [waits.later, number_add]
      have ahead : number (clock b.outside) ≤ number time := by
        rw [moved, waits.length]
        linarith [min_le_right 5 (number time - number (clock a.outside))]
      have same : time - clock b.outside = time - clock a.outside - d := by
        apply number_injective
        simp only [number_sub, moved]
        linarith
      have rest := hi (waits.memory ▸ due) ahead
      rw [same] at rest
      refine rest.wait rfl ?_ length
      rw [number_sub]
      linarith [waits.early]

theorem Course.punctual (course : Course responder id resync looks a visits r c) :
    Punctual responder id resync clock looks visits r := by
  have takes := course.takes
  constructor
  case due =>
    intro v mem r' turn
    exact (turn ▸ takes v mem).timeLeft_eq timed
  case early =>
    intro v mem d turn
    have ⟨time, waits⟩ := (turn ▸ takes v mem).exists_waits timed
    have early := waits.early
    refine ⟨time, _, waits.due, waits.left, ?positive, ?short, ?within, ?before⟩
    case positive =>
      rw [← number_lt_iff, number_zero, waits.length]
      exact lt_min (by norm_num) (sub_pos.mpr early)
    case short =>
      rw [← number_le_iff, waits.length, pollInterval, number_seconds]
      exact min_le_left 5 _
    case within =>
      rw [← number_le_iff, waits.length, number_sub]
      exact min_le_right 5 _
    case before =>
      rw [← number_le_iff, waits.later, number_add, waits.length]
      linarith [min_le_right 5 (number time - number (clock v.before.outside))]
  case again =>
    intro reschedules earlier v later after eq turn nonneg
    subst eq
    rw [← number_le_iff, number_zero] at nonneg
    have takes := takes v (List.mem_append_right _ List.mem_cons_self)
    rw [turn] at takes
    rcases course.split with ⟨_, rest⟩ | ⟨closed, _⟩
    case inr =>
      rw [turn] at closed
      cases closed
    case inl =>
      cases takes with
      | resyncs _ _ ran =>
        have resumes := rest.resumes timed (reschedules ran) (by rw [number_add]; linarith)
        have same : clock v.after.outside + after - clock v.after.outside = after := by
          apply number_injective
          rw [number_sub, number_add]
          linarith
        rwa [same] at resumes
  case ends =>
    intro earlier v later eq turn
    subst eq
    rcases course.split with ⟨further, _⟩ | ⟨closed, none⟩
    case inl =>
      rw [turn] at further
      cases further
    case inr =>
      rw [turn] at closed
      cases closed
      exact ⟨none, rfl⟩

end

section

variable [Timeline τ] {settings : Settings τ} {responder : Responder τ ς} {id : ResourceId} {clock : ς → τ}
  {m m' : Memory τ} {o o' : ς} {body : Value} {action : Action τ} {after : τ}

-- Whether or not it can be read, a stored body is reconciled under its name.
theorem reconcileBody_named (stored : Cluster.Stored id body) {d : Declaration}
    (h : (reconcileBody settings body).answered responder m o = ((.ok (d, action), m'), o')) :
    ∃ own, d.id = .ok own ∧ (own == id) = true := by
  rw [reconcileBody] at h
  split at h
  case h_1 read readable =>
    obtain ⟨_, _, _, _, rest⟩ := Op.exists_of_answered_bind h
    cases rest
    exact (stored.declaration readable).left
  case h_2 =>
    obtain ⟨members, own, held, named, same⟩ := stored
    obtain ⟨outer, eq, found⟩ := held.reads
    have read : body.member Cluster.metadataName = .ok ((outer.get? Cluster.metadataName).getD .null) := by
      simp [eq, Value.member]
    simp only [Cluster.nameOf, Result.bind_eq_ok_iff] at named
    obtain ⟨_, told, known⟩ := named
    rw [show body.member "metadata" = _ from read, Op.ofResult_ok, pure_bind, found] at h
    dsimp only at h
    rw [told, Op.ofResult_ok, pure_bind] at h
    obtain ⟨_, _, _, _, rest⟩ := Op.exists_of_answered_bind h
    cases rest
    exact ⟨own, known, same⟩

theorem schedule_answered (timed : responder.Times clock) (key : ResourceId) :
    (schedule key (.requeue after)).answered responder m o =
      ((.ok (), { m with due := m.due.put key (clock o + after) }), o) := by
  simp only [schedule, Op.answered_bind, Op.answered_now, timed.now, Op.answered_modify]

-- What tells to come back has just been scheduled, and has not waited since.
theorem due_of_answered_schedule (timed : responder.Times clock) {key : ResourceId} (same : (key == id) = true)
    (h : (do schedule key action; pure action).answered responder m o = ((.ok (.requeue after), m'), o')) :
    m'.due.get? id = some (clock o' + after) := by
  obtain ⟨_, m₁, o₁, scheduled, rest⟩ := Op.exists_of_answered_bind h
  cases rest
  rw [schedule_answered timed] at scheduled
  cases scheduled
  rw [← Table.get?_congr same]
  exact Table.get?_put_self ..

theorem handle_due (timed : responder.Times clock) (stored : Cluster.Stored id body)
    (h : (handle settings body).answered responder m o = ((.ok (.requeue after), m'), o')) :
    m'.due.get? id = some (clock o' + after) := by
  obtain ⟨⟨d, action⟩, m₁, o₁, reconciled, rest⟩ := Op.exists_of_answered_bind h
  obtain ⟨own, known, same⟩ := reconcileBody_named stored reconciled
  dsimp only at rest
  rw [known, Op.ofResult_ok, pure_bind] at rest
  exact due_of_answered_schedule timed same rest

theorem resync_reschedules (timed : responder.Times clock)
    (stored : ∀ o body, (responder (.cluster (.getObject id)) o).1 = .ok body → Cluster.Stored id body) :
    Reschedules responder id (resync settings id) clock := by
  intro m m' o o' after h
  rw [resync_eq] at h
  obtain ⟨found, m₁, o₁, told, rest⟩ := Op.exists_of_answered_bind h
  rw [Op.answered_attempt, Op.answered_cluster] at told
  cases told
  rcases given : (responder (.cluster (.getObject id)) o).1 with fault | body
  all_goals rw [given] at rest
  case ok => exact handle_due timed (stored o body given) rest
  case error =>
    dsimp only at rest
    rw [unfetched] at rest
    split at rest
    case h_1 => cases rest
    case h_2 =>
      split at rest
      case isTrue => cases rest
      case isFalse =>
        obtain ⟨_, _, _, _, scheduled⟩ := Op.exists_of_answered_bind rest
        exact due_of_answered_schedule timed BEq.rfl scheduled

end

section

variable [ExactTimeline τ] {responder : Responder τ ς} {clock : ς → τ}

-- A watched resource is reconciled when it is due and at no other time, again and again until there is nothing to come
-- back for. This is so whatever is done to reconcile it, if only that schedules what it tells; `resync` does.
theorem watch_punctual (timed : responder.Times clock) (id : ResourceId) :
    (∀ settings : Settings τ,
      (∀ o body, (responder (.cluster (.getObject id)) o).1 = .ok body → Cluster.Stored id body) →
        Reschedules responder id (resync settings id) clock) ∧
    ∀ (resync : Op τ (Memory τ) (Action τ)) (looks : Nat) (m m' : Memory τ) (o o' : ς) (r : Result Unit),
      (watchWith resync id looks).answered responder m o = ((r, m'), o') → ∃ visits,
        Course responder id resync looks ⟨m, o⟩ visits r ⟨m', o'⟩ ∧
        Punctual responder id resync clock looks visits r := by
  refine ⟨fun settings => resync_reschedules timed, ?_⟩
  intro resync looks m m' o o' r ran
  have ⟨visits, course⟩ := exists_course timed id resync looks m o
  rw [ran] at course
  exact ⟨visits, course, course.punctual timed⟩

end

def watched : ResourceId :=
  ⟨.text "apps", .text "example"⟩

def watchedBody : Value :=
  .object [("metadata", .object [("name", "example"), ("namespace", "apps")])]

-- A cluster that refuses all changes, at a time that only passes by waiting.
def forbidding : Responder Int Int
  | .cluster (.getObject _) => fun time => (.ok watchedBody, time)
  | .cluster _ => fun time => (.error (.refused 403), time)
  | .remote _ => fun time => (.error (.remote "no such service"), time)
  | .now => fun time => (time, time)
  | .wait d => fun time => ((), time + d)

theorem stored_watchedBody : Cluster.Stored watched watchedBody :=
  ⟨_, _, ⟨_, rfl, rfl⟩, rfl, rfl⟩

def impatient : Settings Int :=
  { Settings.inSeconds with errorRequeueAfter := .lasting 12 }

-- It is reconciled at once, and, after the third wait, for a second time.
theorem watch_punctual_forbidden : ∃ m' visits,
    (watch impatient watched 5).answered forbidding .start 0 = ((.ok (), m'), 12) ∧ m'.due.get? watched = some 24 ∧
    Reschedules forbidding watched (resync impatient watched) id ∧
    Course forbidding watched (resync impatient watched) 5 ⟨.start, 0⟩ visits (.ok ()) ⟨m', 12⟩ ∧
    Punctual forbidding watched (resync impatient watched) id 5 visits (.ok ()) := by
  have timed : forbidding.Times id := ⟨fun _ => rfl, fun _ _ => rfl⟩
  have stored (time : Int) (body : Value)
      (given : (forbidding (.cluster (.getObject watched)) time).1 = .ok body) : Cluster.Stored watched body := by
    cases given
    exact stored_watchedBody
  have ⟨m', ran, due⟩ : ∃ m', (watch impatient watched 5).answered forbidding .start 0 = ((.ok (), m'), 12) ∧
      m'.due.get? watched = some 24 :=
    ⟨_, rfl, rfl⟩
  have ⟨reschedules, punctual⟩ := watch_punctual timed watched
  have ⟨visits, course, kept⟩ := punctual (resync impatient watched) 5 _ _ _ _ _ ran
  exact ⟨m', visits, ran, due, reschedules impatient stored, course, kept⟩

end SecretSync.Operator

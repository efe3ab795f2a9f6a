import SecretSync.Proofs.Cache.Contents
import SecretSync.Proofs.Effect.Responder

/-!
The history of a cache, and the runs of it that the history tells. A history holds the fetches that
succeeded and what was invalidated; that expired entries are removed leaves no mark in it. Main
statements: `History.serves_eq_none_of_le`, `Course.useAll_filter`.
-/

namespace SecretSync

-- Asked for the time, the responder tells it and stays as it is: time passes with other calls, a wait for
-- one. None of them turns the clock back.
structure Responder.Ticks {τ ς : Type} [LE τ] (responder : Responder τ ς) (clock : ς → τ) : Prop where
  now    : ∀ m, responder .now m = (clock m, m)
  onward : ∀ call m, clock m ≤ clock (responder call m).2

namespace Cache

variable {τ ν : Type}

inductive Event (τ ν : Type)
  | fetched (key : CacheKey) (value : ν) (finished ttl : τ)
  | invalidated (value : Value)

namespace Event

def clears (key : CacheKey) : Event τ ν → Bool
  | fetched .. => false
  | invalidated value => Cache.clears value key

-- The value of a fetch for a key, as long as its time is not up.
def gives [Timeline τ] (key : CacheKey) (time : τ) : Event τ ν → Option ν
  | fetched k value finished ttl => if (k == key) = true ∧ time < finished + ttl then some value else none
  | invalidated _ => none

end Event

-- The latest event comes first.
abbrev History (τ ν : Type) := List (Event τ ν)

namespace History

variable [Timeline τ]

-- What the events since a key was last invalidated give at a time, the latest of them first.
def serves (key : CacheKey) (time : τ) (history : History τ ν) : Option ν :=
  (history.takeWhile fun event => !event.clears key).findSome? (Event.gives key time)

variable {history : History τ ν} {key : CacheKey} {time : τ}

theorem serves_fetched (k : CacheKey) (value : ν) (finished ttl : τ) :
    serves key time (.fetched k value finished ttl :: history) =
      ((Event.fetched k value finished ttl).gives key time).or (serves key time history) := by
  rw [serves, List.takeWhile_cons_of_pos rfl, List.findSome?_cons]
  split
  case h_1 given => rw [given, Option.some_or]
  case h_2 given => rw [given, Option.none_or, serves]

theorem serves_invalidated (value : Value) :
    serves key time (.invalidated value :: history) =
      if clears value key then none else serves key time history := by
  rw [serves, List.takeWhile_cons, Event.clears]
  cases clears value key
  case false => rfl
  case true => rfl

variable [Std.IsLinearOrder τ] [Std.LawfulOrderLT τ] {now : τ}

theorem serves_eq_none_of_le (h : serves key now history = none) (onward : now ≤ time) :
    serves key time history = none := by
  simp only [serves, List.findSome?_eq_none_iff] at h ⊢
  intro event mem
  have given := h event mem
  cases event
  case invalidated => rfl
  case fetched k value finished ttl =>
    refine if_neg fun ⟨same, live⟩ => ?_
    rw [Event.gives, if_pos ⟨same, Std.lt_of_le_of_lt onward live⟩] at given
    cases given

end History

end Cache

namespace Cached

-- A state that tells how often something was fetched.
structure Tallied (γ : Type) where
  rest    : γ
  fetches : Nat

-- What a key was given, and how often its fetch was run for that.
structure Given (ν : Type) where
  result  : Result ν
  fetches : Nat

-- What is done with a cache. While it waits, whatever answers it may do anything.
inductive Use (τ ν γ : Type)
  | getOrFetch (key : CacheKey) (ttl : τ) (fetch : Op τ γ ν)
  | invalidate (value : Value)
  | purge
  | wait (duration : τ)

def tallied {τ ν γ : Type} (fetch : Op τ γ ν) : Op τ (Tallied γ) ν := do
  modify fun t => { t with fetches := t.fetches + 1 }
  Op.within Tallied.rest (fun rest t => { t with rest }) fetch

namespace Use

variable {τ ν γ : Type}

def isPurge : Use τ ν γ → Bool
  | purge => true
  | _ => false

-- Whether the cache may give a key something else afterwards.
def concerns (key : CacheKey) : Use τ ν γ → Bool
  | getOrFetch k .. => k == key
  | invalidate value => Cache.clears value key
  | _ => false

variable [Timeline τ]

-- Keys have a first part, and times to live are longer than no time at all.
def IsProper : Use τ ν γ → Prop
  | getOrFetch key ttl _ => key.isNonempty = true ∧ Timeline.zero < ttl
  | invalidate value => value = .null ∨ (CacheKey.ofValue? value).isSome = true
  | _ => True

def run : Use τ ν γ → Op τ (Cached τ ν (Tallied γ)) (List (Given ν))
  | getOrFetch key ttl fetch => do
    modify fun s => { s with rest := { s.rest with fetches := 0 } }
    let result ← Op.attempt (Cached.getOrFetch (some key) (.lasting ttl) (tallied fetch))
    pure [⟨result, (← get).rest.fetches⟩]
  | invalidate value => do
    Cached.invalidate value
    pure []
  | purge => do
    let _ ← Cached.purge
    pure []
  | wait duration => do
    Op.wait duration
    pure []

-- The uses one after the other, with all that was given.
def runAll : List (Use τ ν γ) → Op τ (Cached τ ν (Tallied γ)) (List (Given ν))
  | [] => pure []
  | use :: uses => do
    let given ← use.run
    let later ← runAll uses
    pure (given ++ later)

end Use

-- A run without a cache, which remembers what happened instead.
structure Course (τ ν γ ς : Type) where
  history : Cache.History τ ν
  rest    : γ
  world   : ς

namespace Course

variable {τ ν γ ς : Type} [Timeline τ] (responder : Responder τ ς) (clock : ς → τ)

-- A key is fetched if its history does not serve it; what fails is not remembered.
def use (c : Course τ ν γ ς) : Use τ ν γ → List (Given ν) × Course τ ν γ ς
  | .getOrFetch key ttl fetch =>
    match c.history.serves key (clock c.world) with
    | some value => ([⟨.ok value, 0⟩], c)
    | none =>
      match fetch.answered responder c.rest c.world with
      | ((.ok value, rest), world) =>
        ([⟨.ok value, 1⟩], ⟨.fetched key value (clock world) ttl :: c.history, rest, world⟩)
      | ((.error fault, rest), world) => ([⟨.error fault, 1⟩], ⟨c.history, rest, world⟩)
  | .invalidate value => ([], ⟨.invalidated value :: c.history, c.rest, c.world⟩)
  | .purge => ([], c)
  | .wait duration => ([], ⟨c.history, c.rest, (responder (.wait duration) c.world).2⟩)

def useAll (c : Course τ ν γ ς) : List (Use τ ν γ) → List (Given ν) × Course τ ν γ ς
  | [] => ([], c)
  | use :: uses =>
    let (given, c) := c.use responder clock use
    let (later, c) := c.useAll uses
    (given ++ later, c)

variable {responder clock}

theorem useAll_filter (uses : List (Use τ ν γ)) (c : Course τ ν γ ς) :
    c.useAll responder clock (uses.filter fun use => !use.isPurge) = c.useAll responder clock uses := by
  induction uses generalizing c
  case nil => rfl
  case cons u uses hi =>
    cases u
    case purge => exact hi c
    all_goals
      rw [List.filter_cons_of_pos rfl]
      simp only [useAll, hi]

-- What does not concern a key leaves no mark in its history.
theorem serves_use {u : Use τ ν γ} {key : CacheKey} (h : u.concerns key = false) (c : Course τ ν γ ς)
    (time : τ) :
    (c.use responder clock u).2.history.serves key time = c.history.serves key time := by
  cases u
  case getOrFetch k ttl fetch =>
    have different : ¬(k == key) = true := Bool.eq_false_iff.mp h
    rw [use]
    split
    case h_1 => rfl
    case h_2 =>
      split
      case h_1 =>
        rw [Cache.History.serves_fetched, Cache.Event.gives, if_neg fun given => different given.left,
          Option.none_or]
      case h_2 => rfl
  case invalidate value =>
    have spared : Cache.clears value key = false := h
    rw [use, Cache.History.serves_invalidated, spared, if_neg Bool.false_ne_true]
  case purge => rfl
  case wait => rfl

end Course

end Cached
end SecretSync

import Mathlib.Data.List.Forall2
import SecretSync.Lookup
import SecretSync.Proofs.Result

/-!
What a cached value is known by fixes the request that it was fetched with. Main statement:
`sameRequest_of_cacheKey`.
-/

namespace SecretSync

theorem Binary64.truncate?_of_whole? {b : Binary64} {n : Int} (h : b.whole? = some n) :
    b.truncate? = some n := by
  cases b
  case finite =>
    simp only [whole?] at h
    split at h
    · exact h
    · cases h
  all_goals cases h

theorem Binary64.ofFloat_congr {x y : Float} (h : x.toBits = y.toBits) : ofFloat x = ofFloat y := by
  simp only [ofFloat, h]

namespace Key

theorem floatIdentity_cases (x : Float) :
    (floatIdentity x = .nan ∧ (Value.float x).toInt = .error .unreadable) ∨
      (∃ n, floatIdentity x = .whole n ∧ (Value.float x).toInt = .ok n) ∨
        floatIdentity x = .other x.toBits := by
  simp only [floatIdentity, Value.toInt]
  cases Binary64.ofFloat x
  case nan => simp
  case infinite => simp [Binary64.whole?]
  case finite negative mantissa exponent =>
    cases whole : (Binary64.finite negative mantissa exponent).whole?
    case none => simp [whole]
    case some n => simp [whole, Binary64.truncate?_of_whole? whole, Result.ofOption]

theorem exists_float {key : Key} {bits : UInt64} (h : key.identity = .other bits) :
    ∃ x, key = .float x ∧ x.toBits = bits := by
  cases key
  case float x =>
    rcases floatIdentity_cases x with ⟨known, _⟩ | ⟨_, known, _⟩ | known
    all_goals
      simp only [identity, known] at h
      cases h
    exact ⟨x, rfl, rfl⟩
  all_goals cases h

-- The integer that a key denotes, by what it has in common with the keys that are the same.
def Identity.toInt : Identity → Result Int
  | null => .error .wrongKind
  | whole n => .ok n
  | nan => .error .unreadable
  | other bits => (Value.float (.ofBits bits)).toInt
  | text t => (Value.text t).toInt
  | bytes _ => .error .wrongKind

theorem toInt_eq {key : Key} (h : ∀ bits, key.identity ≠ .other bits) :
    key.toValue.toInt = key.identity.toInt := by
  cases key
  case float x =>
    rcases floatIdentity_cases x with ⟨known, eq⟩ | ⟨n, known, eq⟩ | known
    case inl | inr.inl =>
      simp only [identity, known]
      exact eq
    case inr.inr => exact absurd known (h _)
  all_goals rfl

-- Keys that are the same denote the same integer.
theorem toInt_congr {a b : Key} (same : a.identity = b.identity) : a.toValue.toInt = b.toValue.toInt := by
  by_cases broken : ∃ bits, a.identity = .other bits
  case pos =>
    have ⟨bits, known⟩ := broken
    have ⟨x, eq, here⟩ := exists_float known
    have ⟨y, eq', there⟩ := exists_float (same.symm.trans known)
    subst eq eq'
    simp only [toValue, Value.toInt, Binary64.ofFloat_congr (here.trans there.symm)]
  case neg =>
    have sound (bits : UInt64) (known : a.identity = .other bits) : False := broken ⟨bits, known⟩
    rw [toInt_eq sound, toInt_eq (same ▸ sound), same]

end Key

theorem Backend.name_injective {a b : Backend} (h : a.name = b.name) : a = b := by
  rw [← ofValue_name a, h, ofValue_name b]

namespace Value

-- Values that are the same key.
def IsSameKey (v w : Value) : Prop :=
  ∃ a b, v.key? = some a ∧ w.key? = some b ∧ a.identity = b.identity

variable {v w : Value}

theorem mapM_key?_cons {values : List Value} {keys : List Key} :
    (v :: values).mapM key? = some keys ↔
      ∃ key rest, v.key? = some key ∧ values.mapM key? = some rest ∧ keys = key :: rest := by
  simp only [List.mapM_cons, Option.bind_eq_bind, Option.bind_eq_some_iff]
  constructor
  case mp =>
    intro ⟨key, keyed, rest, known, eq⟩
    exact ⟨key, rest, keyed, known, (Option.some.inj eq).symm⟩
  case mpr =>
    intro ⟨key, rest, keyed, known, eq⟩
    exact ⟨key, keyed, rest, known, congrArg _ eq.symm⟩

theorem forall₂_isSameKey {values values' : List Value} {keys keys' : List Key}
    (known : values.mapM key? = some keys) (known' : values'.mapM key? = some keys')
    (same : keys.map Key.identity = keys'.map Key.identity) :
    List.Forall₂ IsSameKey values values' := by
  induction values generalizing values' keys keys'
  case nil =>
    cases known
    cases values'
    case nil => exact .nil
    case cons =>
      have ⟨_, _, _, _, eq⟩ := mapM_key?_cons.mp known'
      subst eq
      cases same
  case cons v values hi =>
    have ⟨key, rest, keyed, behind, eq⟩ := mapM_key?_cons.mp known
    subst eq
    cases values'
    case nil =>
      cases known'
      cases same
    case cons =>
      have ⟨key', rest', keyed', behind', eq⟩ := mapM_key?_cons.mp known'
      subst eq
      have ⟨first, others⟩ := List.cons.inj same
      exact .cons ⟨key, key', keyed, keyed', first⟩ (hi behind behind' others)

theorem toValue_of_key? {key : Key} (h : v.key? = some key) : key.toValue = v := by
  cases v
  all_goals cases h
  all_goals rfl

theorem IsSameKey.versionNumber_eq (h : v.IsSameKey w) : Aws.versionNumber v = Aws.versionNumber w := by
  have ⟨a, b, keyed, keyed', same⟩ := h
  have number := Key.toInt_congr same
  rw [toValue_of_key? keyed, toValue_of_key? keyed'] at number
  simp only [Aws.versionNumber, number]

theorem versionNumber_of_key? {version : Value} (h : version.key? = none) :
    Aws.versionNumber version = .error (.missingSetting "AppConfig" "version_number") := by
  cases version
  case list | object | stream => rfl
  all_goals cases h

def IsTextOrNull (v : Value) : Prop :=
  v = .null ∨ ∃ t, v = .text t

theorem isTextOrNull_text (t : Text) : (Value.text t).IsTextOrNull :=
  .inr ⟨t, rfl⟩

theorem IsSameKey.eq (h : v.IsSameKey w) (textual : v.IsTextOrNull) (textual' : w.IsTextOrNull) :
    v = w := by
  have ⟨a, b, keyed, keyed', same⟩ := h
  rcases textual with eq | ⟨t, eq⟩
  all_goals
    rcases textual' with eq' | ⟨t', eq'⟩
    all_goals
      subst eq eq'
      cases keyed
      cases keyed'
  case inl.inl => rfl
  case inr.inr => exact congrArg _ (Key.Identity.text.inj same)
  all_goals cases same

theorem IsSameKey.text_eq {t t' : Text} (h : (Value.text t).IsSameKey (.text t')) : t = t' :=
  Value.text.inj (h.eq (isTextOrNull_text t) (isTextOrNull_text t'))

end Value

namespace Lookup

-- Whatever is named beside the lookup itself is a text or left out. A version may be anything.
def IsTextual : Lookup → Prop
  | configuration _ profile _ => profile.IsTextOrNull
  | pulumiStack _ token => token.IsTextOrNull
  | _ => True

variable {τ : Type} (settings : Settings τ)

-- Lookups of one kind that ask for the same.
inductive SameRequest : Lookup → Lookup → Prop
  | parameter {name : Text} : SameRequest (.parameter name) (.parameter name)
  | secret {name : Text} : SameRequest (.secret name) (.secret name)
  | stack {name : Text} : SameRequest (.stack name) (.stack name)
  | configuration {application : Text} {profile version version' : Value}
      (number : Aws.versionNumber version = Aws.versionNumber version') :
      SameRequest (.configuration application profile version) (.configuration application profile version')
  | pulumiStack {path : Text} {token token' : Value}
      (effective : Pulumi.effectiveToken settings token = Pulumi.effectiveToken settings token') :
      SameRequest (.pulumiStack path token) (.pulumiStack path token')
  | vaultSecret {path : Text} : SameRequest (.vaultSecret path) (.vaultSecret path)

variable {l l' : Lookup} {key key' : CacheKey}

variable {settings} in
theorem SameRequest.fetch_eq (h : SameRequest settings l l') : l.fetch settings = l'.fetch settings := by
  cases h
  case configuration number => simp only [fetch, Aws.configuration, number]
  case pulumiStack effective => simp only [fetch, Pulumi.outputs, effective]
  all_goals rfl

theorem exists_of_cacheKey (h : l.cacheKey? = some key) :
    ∃ keys, l.details.mapM Value.key? = some keys ∧ key = .several (.text l.backend.name :: keys) := by
  simp only [cacheKey?, Option.bind_eq_bind, Option.bind_eq_some_iff] at h
  obtain ⟨keys, known, eq⟩ := h
  exact ⟨keys, known, (Option.some.inj eq).symm⟩

theorem isNonempty_of_cacheKey (h : l.cacheKey? = some key) : key.isNonempty = true :=
  have ⟨_, _, eq⟩ := exists_of_cacheKey h
  eq ▸ rfl

theorem sameRequest_of_cacheKey (textual : l.IsTextual) (textual' : l'.IsTextual)
    (keyed : l.cacheKey? = some key) (keyed' : l'.cacheKey? = some key') (same : (key == key') = true) :
    SameRequest settings l l' := by
  have ⟨keys, known, eq⟩ := exists_of_cacheKey keyed
  have ⟨keys', known', eq'⟩ := exists_of_cacheKey keyed'
  subst eq eq'
  have ⟨named, parts⟩ := List.cons.inj (Sum.inr.inj (CacheKey.beq_iff.mp same))
  have kind : l.backend = l'.backend := Backend.name_injective (Key.Identity.text.inj named)
  have details := Value.forall₂_isSameKey known known' parts
  cases l
  all_goals
    cases l'
    all_goals try cases kind
    have ⟨first, others⟩ := List.forall₂_cons.mp details
    cases first.text_eq
  case configuration.configuration.refl =>
    have ⟨profile, others⟩ := List.forall₂_cons.mp others
    have ⟨version, _⟩ := List.forall₂_cons.mp others
    cases profile.eq textual textual'
    exact .configuration version.versionNumber_eq
  case pulumiStack.pulumiStack.refl =>
    have ⟨token, _⟩ := List.forall₂_cons.mp others
    cases token.eq textual textual'
    exact .pulumiStack rfl
  all_goals constructor

-- What cannot be kept cannot be asked for either.
theorem exists_fetch_eq_throw {l : Lookup} (textual : l.IsTextual) (h : l.cacheKey? = none) :
    ∃ fault, l.fetch settings = throw fault := by
  cases l
  case configuration application profile version =>
    have unkeyed : version.key? = none := by
      rcases textual with eq | ⟨t, eq⟩
      all_goals
        subst eq
        cases version
        case list | object | stream => rfl
        all_goals cases h
    simp only [fetch, Aws.configuration, Value.versionNumber_of_key? unkeyed]
    split
    all_goals exact ⟨_, rfl⟩
  case pulumiStack =>
    rcases textual with eq | ⟨t, eq⟩
    all_goals
      subst eq
      cases h
  all_goals cases h

end Lookup

end SecretSync

import SecretSync.Proofs.Content.Acceptance
import SecretSync.Proofs.Target.Exact

/-!
What is sent to make an existing secret hold content, and what the secret is then. Unless its label is that
of the content there is one patch, which leaves exactly the content and the labels that the operator does not
set; otherwise nothing is written. Main statement: `Target.ensure_replaces`.
-/

namespace SecretSync

open Table (Distinct)

namespace Labels

theorem get?_putAll_build_app (labels : Labels) (name : Value) (n : Nat) :
    (labels.putAll (build name n)).get? app = some name := by
  have apart : (hashId == app) = false := by decide
  simp [build, Table.putAll, Table.get?_put, apart]

-- Labels of others are left as they are.
theorem get?_putAll_build_of_ne (labels : Labels) (name : Value) (n : Nat) {label : Text}
    (notApp : label ≠ app) (notHash : label ≠ hashId) :
    (labels.putAll (build name n)).get? label = labels.get? label := by
  simp [build, Table.putAll, Table.get?_put, notApp.symm, notHash.symm]

end Labels

theorem Target.labels_of_patch {id : ResourceId} {name : Text} {content : Content} {existing : Secret}
    {n : Nat} {patch : SecretPatch} (made : Target.patch id content (some existing) n = .ok patch)
    (named : id.name = .text name) : patch.labels = Labels.build (.text name) n := by
  simp only [Target.patch, Result.bind_eq_ok_iff, Result.pure_eq_ok_iff] at made
  obtain ⟨_, _, eq⟩ := made
  rw [← eq, named]
  rfl

namespace Secret

def label? (s : Secret) (label : Text) : Option Value :=
  (s.labels.getD []).get? label

theorem recorded_labelsValue (s : Secret) :
    Labels.recorded s.labelsValue =
      Result.ofOption .noSuchEntry (s.label? Labels.hashId) >>= Value.toInt := by
  have given : s.labelsValue.orEmpty = .object (s.labels.getD []) := by
    have ⟨labels, _⟩ := s
    rcases labels with _ | _ | _
    all_goals rfl
  rw [Labels.recorded, given]
  rfl

-- Every label is read as a fingerprint or as none, except for an infinite float, and labels of secrets in a
-- cluster are texts.
theorem label?_of_fingerprint?_eq_error {s : Secret} {fault : Fault} (h : s.fingerprint? = .error fault) :
    ∃ x negative, s.label? Labels.hashId = some (.float x) ∧
      Binary64.ofFloat x = .infinite negative := by
  rw [fingerprint?, Labels.fingerprint?, recorded_labelsValue] at h
  cases found : s.label? Labels.hashId
  case none => simp [found, Result.ofOption, bind, Except.bind] at h
  case some label =>
    cases label
    case float x =>
      cases read : Binary64.ofFloat x
      case infinite negative => exact ⟨x, negative, rfl, read⟩
      all_goals simp [found, read, Result.ofOption, bind, Except.bind, Value.toInt, Binary64.truncate?,
        Fault.isUnreadableValue] at h
    case text t =>
      cases read : Numeral.int? t
      all_goals simp [found, read, Result.ofOption, bind, Except.bind, Value.toInt,
        Fault.isUnreadableValue] at h
    all_goals simp [found, Result.ofOption, bind, Except.bind, Value.toInt] at h

-- The secret holds content and nothing else, is labelled with a name and the fingerprint of the content, and
-- has every other label that it had before.
structure Replaced (before : Secret) (name : Text) (content : Content) (n : Nat) (s : Secret) : Prop where
  data   : ∃ held, s.content? = some held ∧ held.Perm content
  app    : s.label? Labels.app = some (.text name)
  hashId : s.label? Labels.hashId = some (.text (Text.ofNat n))
  others : ∀ label, label ≠ Labels.app → label ≠ Labels.hashId → s.label? label = before.label? label

theorem replaced_patchedSecret {s : Secret} {id : ResourceId} {name : Text} {content : Content} {n : Nat}
    {patch : SecretPatch} (made : Target.patch id content (some s) n = .ok patch)
    (named : id.name = .text name) (fingerprint : content.fingerprint = .ok n)
    (distinct : Distinct content) (isDistinct : s.IsDistinct) :
    s.Replaced name content n (Cluster.patchedSecret s patch) := by
  have labels := Target.labels_of_patch made named
  have label (label : Text) : (Cluster.patchedSecret s patch).label? label =
      ((s.labels.getD []).putAll (Labels.build (.text name) n)).get? label := by
    rw [← labels]
    rfl
  constructor
  case data => exact content?_patched made fingerprint distinct isDistinct
  case app => exact (label _).trans (Labels.get?_putAll_build_app ..)
  case hashId => exact (label _).trans (Labels.get?_putAll_build ..)
  case others =>
    exact fun other notApp notHash => (label other).trans (Labels.get?_putAll_build_of_ne _ _ _ notApp notHash)

end Secret

namespace Cluster

variable {τ : Type}

-- A cluster that answers every call, with the calls that were made. Other calls are answered anyhow.
def noting (elsewhere : (call : Call τ) → call.Reply) : Responder τ (Cluster × List (Call τ))
  | .cluster call => fun (c, asked) => ((c.answer call).1, ((c.answer call).2, asked ++ [.cluster call]))
  | call => fun (c, asked) => (elsewhere call, (c, asked ++ [call]))

end Cluster

namespace Target

variable {τ σ : Type} (elsewhere : (call : Call τ) → call.Reply) {s : σ} {c : Cluster} {asked : List (Call τ)}
  {id : ResourceId} {name : Text} {content : Content} {existing : Secret} {n : Nat}

-- What is asked to know the secret, if it is not known.
def reads (id : ResourceId) : Option Secret → List (Call τ)
  | some _ => []
  | none => [.cluster (.readSecret id)]

theorem answered_read (live : c.secrets.get? id = some existing) :
    (read id : Op τ σ _).answered (Cluster.noting elsewhere) s (c, asked) =
      ((.ok (some existing), s), (c, asked ++ [.cluster (.readSecret id)])) := by
  have reply : (Op.cluster (.readSecret id) : Op τ σ Secret).answered (Cluster.noting elsewhere) s (c, asked) =
      ((.ok existing, s), (c, asked ++ [.cluster (.readSecret id)])) :=
    (Op.answered_cluster ..).trans (by simp [Cluster.noting, Cluster.answer, live])
  simp [read, Op.answered_bind, Op.answered_attempt, reply, unlessRefused]

-- An existing secret is updated, once it is known.
theorem answered_ensure {given : Option Secret} (live : c.secrets.get? id = some existing)
    (known : ∀ s, given = some s → s = existing) :
    (ensure id content given : Op τ σ _).answered (Cluster.noting elsewhere) s (c, asked) =
      (update id content existing : Op τ σ _).answered (Cluster.noting elsewhere) s
        (c, asked ++ reads id given) := by
  cases given
  case none =>
    rw [ensure, Op.answered_bind, answered_read elsewhere live]
    rfl
  case some other =>
    have same : other = existing := known other rfl
    rw [ensure_some, same, reads, List.append_nil]

theorem exists_patch (id : ResourceId) (existing : Secret) (n : Int)
    (bytes : ∀ entry ∈ content, ∃ b, entry.2 = .bytes b) :
    ∃ change, patch id content (some existing) n = .ok change := by
  have ⟨data, encoded⟩ := Content.exists_encode bytes
  rw [patch, encoded]
  exact ⟨_, rfl⟩

variable (fingerprint : content.fingerprint = .ok n)
include fingerprint

theorem answered_update_of_fault {fault : Fault} (unread : existing.fingerprint? = .error fault) :
    (update id content existing : Op τ σ _).answered (Cluster.noting elsewhere) s (c, asked) =
      ((.error fault, s), (c, asked)) := by
  simp [update, Op.answered_bind, fingerprint, unread]

theorem answered_update_of_eq (recorded : existing.fingerprint? = .ok (some (n : Int))) :
    (update id content existing : Op τ σ _).answered (Cluster.noting elsewhere) s (c, asked) =
      ((.ok .unchanged, s), (c, asked)) := by
  simp [update, Op.answered_bind, fingerprint, recorded]

theorem answered_update_of_ne {stored : Option Int} {patch : SecretPatch}
    (recorded : existing.fingerprint? = .ok stored) (differs : stored ≠ some (n : Int))
    (made : Target.patch id content (some existing) n = .ok patch) (named : id.name = .text name)
    (live : c.secrets.get? id = some existing) :
    (update id content existing : Op τ σ _).answered (Cluster.noting elsewhere) s (c, asked) =
      ((.ok .patched, s), (c.putSecret id (Cluster.patchedSecret existing patch),
        asked ++ [.cluster (.patchSecret id patch)])) := by
  have texts : patch.labels.areTexts = true := by
    rw [labels_of_patch made named]
    rfl
  have reply : (Op.cluster (.patchSecret id patch) : Op τ σ Unit).answered (Cluster.noting elsewhere) s
      (c, asked) = ((.ok (), s), (c.putSecret id (Cluster.patchedSecret existing patch),
        asked ++ [.cluster (.patchSecret id patch)])) :=
    (Op.answered_cluster ..).trans (by simp [Cluster.noting, Cluster.answer, live, texts])
  simp only [update, amend, pure_bind, Op.answered_bind, Op.answered_ofResult, Op.answered_pure, fingerprint,
    recorded, made, reply, if_neg differs]

omit fingerprint

variable (s asked) in
-- Whether the secret is given or read, and whatever it holds.
theorem ensure_replaces {given : Option Secret} (scalar : ∀ entry ∈ content, entry.1.IsScalar)
    (bytes : ∀ entry ∈ content, ∃ b, entry.2 = .bytes b) (distinct : Distinct content)
    (isDistinct : existing.IsDistinct) (live : c.secrets.get? id = some existing)
    (known : ∀ s, given = some s → s = existing) (named : id.name = .text name) :
    ∃ n, content.fingerprint = .ok n ∧
      (∀ stored, existing.fingerprint? = .ok stored → stored ≠ some (n : Int) → ∃ patch,
        (ensure id content given : Op τ σ _).answered (Cluster.noting elsewhere) s (c, asked) =
          ((.ok .patched, s), (c.putSecret id (Cluster.patchedSecret existing patch),
            asked ++ reads id given ++ [.cluster (.patchSecret id patch)])) ∧
        existing.Replaced name content n (Cluster.patchedSecret existing patch)) ∧
      (existing.fingerprint? = .ok (some (n : Int)) →
        (ensure id content given : Op τ σ _).answered (Cluster.noting elsewhere) s (c, asked) =
          ((.ok .unchanged, s), (c, asked ++ reads id given))) ∧
      ∀ fault, existing.fingerprint? = .error fault →
        (ensure id content given : Op τ σ _).answered (Cluster.noting elsewhere) s (c, asked) =
          ((.error fault, s), (c, asked ++ reads id given)) ∧
        ∃ x negative, existing.label? Labels.hashId = some (.float x) ∧
          Binary64.ofFloat x = .infinite negative := by
  have written : ∀ entry ∈ content, ∃ name payload, entry = (.text name, .bytes payload) := by
    intro entry mem
    have ⟨name, text, _⟩ := scalar entry mem
    have ⟨payload, eq⟩ := bytes entry mem
    exact ⟨name, payload, Prod.ext text eq⟩
  obtain ⟨n, fingerprint⟩ := (Content.exists_fingerprint_iff_isScalar written).mpr scalar
  refine ⟨n, fingerprint, ?_⟩
  rw [answered_ensure elsewhere live known]
  refine ⟨fun stored recorded differs => ?_, answered_update_of_eq elsewhere fingerprint, fun fault unread => ?_⟩
  · obtain ⟨patch, made⟩ := exists_patch id existing n bytes
    exact ⟨patch, answered_update_of_ne elsewhere fingerprint recorded differs made named live,
      Secret.replaced_patchedSecret made named fingerprint distinct isDistinct⟩
  · exact ⟨answered_update_of_fault elsewhere fingerprint unread,
      Secret.label?_of_fingerprint?_eq_error unread⟩

section

-- A key that is gone, one that stays and one that is new.

def demo : ResourceId := { namespaceName := "default", name := "demo" }

def demoSecret : Secret where
  labels := some [("team", "payments"), ("app", "another")]
  data := some [("drop", "MQ=="), ("keep", "MQ==")]

def demoContent : Content := [("new", .bytes [51]), ("keep", .bytes [50])]

def idle : (call : Call Int) → call.Reply
  | .cluster _ => .error default
  | .remote _ => .error default
  | .now => 0
  | .wait _ => ()

theorem ensure_replaces_demo :
    ∃ n patch, demoContent.fingerprint = .ok n ∧
      (ensure demo demoContent none : Op Int Unit _).answered (Cluster.noting idle) ()
          (⟨[(demo, demoSecret)], []⟩, []) =
        ((.ok .patched, ()), (⟨[(demo, Cluster.patchedSecret demoSecret patch)], []⟩,
          [.cluster (.readSecret demo), .cluster (.patchSecret demo patch)])) ∧
      demoSecret.Replaced "demo" demoContent n (Cluster.patchedSecret demoSecret patch) := by
  have scalar : ∀ entry ∈ demoContent, entry.1.IsScalar := by
    simp only [demoContent, List.forall_mem_cons, List.not_mem_nil, false_implies, implies_true, and_true]
    exact ⟨⟨"new", rfl, by decide⟩, ⟨"keep", rfl, by decide⟩⟩
  have bytes : ∀ entry ∈ demoContent, ∃ b, entry.2 = .bytes b := by simp [demoContent]
  have distinct : Distinct demoContent := by
    simp [demoContent, Distinct, Table.get?]
    decide
  have isDistinct : demoSecret.IsDistinct := by
    simp [demoSecret, Secret.IsDistinct, Distinct, Table.get?]
    decide
  have live : (⟨[(demo, demoSecret)], []⟩ : Cluster).secrets.get? demo = some demoSecret := by rfl
  have known : ∀ s, (none : Option Secret) = some s → s = demoSecret :=
    fun _ eq => absurd eq (Option.some_ne_none _).symm
  obtain ⟨n, fingerprint, patched, _⟩ :=
    ensure_replaces idle () [] scalar bytes distinct isDistinct live known rfl
  obtain ⟨patch, answered, replaced⟩ := patched none (by rfl) (Option.some_ne_none _).symm
  exact ⟨n, patch, fingerprint, answered, replaced⟩

end

end Target

end SecretSync

import SecretSync.Proofs.Content.Precedence
import SecretSync.Proofs.Content.Preimage
import SecretSync.Target

/-!
What is assembled can be written, whatever remote services tell. A field that fails gives nothing, and a
field that does not gives entries whose payloads are bytes. Their names are declared, or are those of the
members of a document that a field without a key takes apart. Only the latter may have no UTF-8 form, and
then the content has no fingerprint. Main statement: `assemble_accepted`.
-/

namespace SecretSync

theorem exists_of_forall₂ {α β : Type} {R : α → β → Prop} {as : List α} {bs : List β}
    (h : List.Forall₂ R as bs) {b : β} (mem : b ∈ bs) : ∃ a ∈ as, R a b := by
  induction h
  case nil => cases mem
  case cons a _ _ _ first _ hi =>
    cases mem
    case head => exact ⟨a, List.mem_cons_self, first⟩
    case tail mem =>
      have ⟨a, within, behind⟩ := hi mem
      exact ⟨a, List.mem_cons_of_mem _ within, behind⟩

-- The services whose documents a field without a key takes apart.
def Backend.Expands (backend : Backend) : Prop :=
  backend = .cloudformation ∨ backend = .pulumi ∨ backend = .vault

-- A declared key is left out, or it is a text without surrogates.
def Field.IsOrdinary (field : Field) : Prop :=
  field.key = .null ∨ ∃ t : Text, field.key = .text t ∧ t.isScalar = true

def Key.IsScalar (key : Key) : Prop :=
  ∃ name : Text, key = .text name ∧ name.isScalar = true

-- What a field of a source may give.
inductive Field.Gives (field : Field) (source : Source) : Content → Prop
  | nothing : Gives field source []
  | single {name : Text} {payload : Bytes} (key : field.key = .text name)
      (scalar : name.isScalar = true) : Gives field source [(.text name, .bytes payload)]
  | members {fetched : Value} {members : List (Text × Value)} {content : Content}
      (keyless : field.key.isGiven = false) (expands : source.backend.Expands)
      (document : Json.parseValue fetched = .ok (.object members))
      (made : Content.ofMembers members = .ok content) : Gives field source content

namespace Field

open Content (IsNamed)

variable {field : Field} {source : Source} {fetched : Value} {content : Content}

theorem gives_single {payload : Bytes} (ordinary : field.IsOrdinary)
    (given : field.key.isGiven = true) (h : Content.single field.key payload = .ok content) :
    field.Gives source content := by
  cases ordinary
  case inl eq =>
    rw [eq] at given
    cases given
  case inr textual =>
    have ⟨name, eq, scalar⟩ := textual
    rw [eq] at h
    cases h
    exact .single eq scalar

theorem gives_expand (keyless : field.key.isGiven = false) (expands : source.backend.Expands)
    (h : Content.expand fetched = .ok content) : field.Gives source content := by
  simp only [Content.expand, Result.bind_eq_ok_iff] at h
  obtain ⟨document, parsed, made⟩ := h
  split at made
  case h_1 => exact .members keyless expands parsed made
  case h_2 => cases made

theorem gives_entries {canExpand : Bool} (ordinary : field.IsOrdinary)
    (expands : canExpand = false ∨ source.backend.Expands)
    (h : field.entries fetched canExpand = .ok content) : field.Gives source content := by
  simp only [entries] at h
  split at h
  case isTrue given =>
    split at h
    · simp only [Result.bind_eq_ok_iff] at h
      obtain ⟨part, _, h⟩ := h
      split at h
      case isTrue =>
        cases h
        exact .nothing
      case isFalse =>
        simp only [Result.bind_eq_ok_iff] at h
        obtain ⟨_, _, made⟩ := h
        exact gives_single ordinary given made
    · simp only [Result.bind_eq_ok_iff] at h
      obtain ⟨_, _, made⟩ := h
      exact gives_single ordinary given made
  case isFalse keyless =>
    split at h
    case isTrue can =>
      rcases Result.recover_eq_ok h with made | eq
      case inl =>
        have expands := expands.resolve_left (Bool.eq_false_iff.not_left.mpr can)
        exact gives_expand (Bool.eq_false_iff.mpr keyless) expands made
      case inr => exact eq ▸ .nothing
    case isFalse =>
      cases h
      exact .nothing

theorem gives_entriesOf {fetched : Fetched} (ordinary : field.IsOrdinary)
    (h : field.entriesOf source.backend fetched = .ok content) : field.Gives source content := by
  simp only [entriesOf, outputEntries] at h
  split at h
  case h_1 backend =>
    simp only [Result.bind_eq_ok_iff] at h
    obtain ⟨_, _, made⟩ := h
    exact gives_entries ordinary (.inr (.inl backend)) made
  case h_2 backend =>
    simp only [Result.bind_eq_ok_iff] at h
    obtain ⟨_, _, made⟩ := h
    exact gives_entries ordinary (.inr (.inr (.inl backend))) made
  case h_3 backend =>
    simp only [Result.bind_eq_ok_iff] at h
    obtain ⟨_, _, made⟩ := h
    exact gives_entries ordinary (.inr (.inr (.inr backend))) made
  case h_4 =>
    split at h
    case h_1 => exact gives_entries ordinary (.inl rfl) h
    case h_2 =>
      cases h
      exact .nothing

variable {τ κ : Type} [Timeline τ] {api : Api κ} {settings : Settings τ} {ttl : Span τ}
  {s : Session τ} {w : World τ κ}

theorem resolve_gives (ordinary : field.IsOrdinary) :
    (field.resolve settings ttl source).Ensures api s w (fun content _ _ => field.Gives source content)
      fun _ _ _ => True := by
  have outcome (r : Result Content) (gives : ∀ content, r = .ok content → field.Gives source content)
      (s : Session τ) (w : World τ κ) :
      (Op.ofResult r).Ensures api s w (fun content _ _ => field.Gives source content)
        fun _ _ _ => True := by
    rw [Op.ensures_ofResult]
    cases r
    case ok content => exact gives content rfl
    case error => trivial
  simp only [resolve]
  split
  case h_1 => exact outcome _ (fun _ => gives_entries ordinary (.inl rfl)) s w
  case h_2 =>
    apply (Op.Ensures.trivial _ s w).bind
    exact fun _ s w _ => outcome _ (fun _ => gives_entriesOf ordinary) s w

-- The entries are those of a content that can be encoded.
theorem Gives.entries (h : field.Gives source content) :
    ∀ entry ∈ content, ∃ name payload, entry = (.text name, .bytes payload) := by
  cases h
  case nothing => exact List.forall_mem_nil _
  case single => exact List.forall_mem_singleton.mpr ⟨_, _, rfl⟩
  case members made =>
    intro entry mem
    have ⟨member, _, payload, eq⟩ := Content.mem_ofMembers made entry mem
    exact ⟨member.1, payload, eq⟩

theorem Gives.isNamed (h : field.Gives source content) : IsNamed content := by
  intro entry mem
  have ⟨name, _, eq⟩ := h.entries entry mem
  exact ⟨name, congrArg Prod.fst eq⟩

theorem Gives.isScalar (h : field.Gives source content) :
    (∀ entry ∈ content, entry.1.IsScalar) ∨ source.backend.Expands ∧ field.key.isGiven = false := by
  cases h
  case nothing => exact .inl (List.forall_mem_nil _)
  case single name payload key scalar => exact .inl (List.forall_mem_singleton.mpr ⟨name, rfl, scalar⟩)
  case members keyless expands _ _ => exact .inr ⟨expands, keyless⟩

end Field

-- What a field gave between `w` and `w'`: what it was resolved to, or nothing if that failed.
inductive Field.Contributes {τ κ : Type} [Timeline τ] (api : Api κ) (settings : Settings τ)
    (ttl : Span τ) (w w' : World τ κ) (source : Source) (field : Field) : Content → Prop
  | gave {s s' : Session τ} {v v' : World τ κ} {part : Content}
      (run : (field.resolve settings ttl source).Run api s v (.ok part) s' v') (after : w.Before v)
      (before : v'.Before w') (gives : field.Gives source part) :
      Contributes api settings ttl w w' source field part
  | failed {s s' : Session τ} {v v' : World τ κ} {fault : Fault}
      (run : (field.resolve settings ttl source).Run api s v (.error fault) s' v') (after : w.Before v)
      (before : v'.Before w') : Contributes api settings ttl w w' source field []

section

variable {τ κ : Type} [Timeline τ] {api : Api κ} {settings : Settings τ} {ttl : Span τ}
  {s : Session τ} {w w' v v' : World τ κ} {source : Source}

namespace Field

variable {field : Field} {part : Content}

theorem Contributes.mono (h : field.Contributes api settings ttl v v' source part) (after : w.Before v)
    (before : v'.Before w') : field.Contributes api settings ttl w w' source part := by
  cases h
  case gave after' before' run gives => exact .gave run (after.trans after') (before'.trans before) gives
  case failed run after' before' => exact .failed run (after.trans after') (before'.trans before)

theorem Contributes.gives (h : field.Contributes api settings ttl w w' source part) :
    field.Gives source part := by
  cases h
  case gave gives => exact gives
  case failed => exact .nothing

theorem resolve_contributes (ordinary : field.IsOrdinary) :
    (Op.attempt (field.resolve settings ttl source)).Ensures api s w
      (fun r _ w' => field.Contributes api settings ttl w w' source (r.toOption.getD []))
      fun _ _ _ => False := by
  rw [Op.ensures_attempt]
  apply ((Op.Ensures.of_run _ s w).and (resolve_gives ordinary)).mono
  case hok => exact fun _ _ w' ⟨run, gives⟩ => .gave run (.refl w) (.refl w') gives
  case hfail => exact fun _ _ w' ⟨run, _⟩ => .failed run (.refl w) (.refl w')

end Field

namespace Source

theorem resolveFields_contributes {fields : List Field} (ordinary : ∀ field ∈ fields, field.IsOrdinary)
    (found : Content) :
    (source.resolveFields settings ttl fields found).Ensures api s w
      (fun content _ w' => ∃ parts,
        List.Forall₂ (Field.Contributes api settings ttl w w' source) fields parts ∧
          content = parts.foldl Content.merge found)
      fun _ _ _ => False := by
  induction fields generalizing found s w
  case nil => exact (Op.ensures_pure _).mpr ⟨[], .nil, rfl⟩
  case cons field rest hi =>
    have ⟨first, others⟩ := List.forall_mem_cons.mp ordinary
    apply (Field.resolve_contributes first).before.bind
    intro r s₁ w₁ ⟨contributes, after⟩
    -- A field that failed gave nothing, which changes nothing of what is found.
    have rest_contributes (found : Content) := (hi others found (s := s₁) (w := w₁)).before
    have put (content : Content) (s' : Session τ) (w' : World τ κ)
        (h : (∃ parts, List.Forall₂ (Field.Contributes api settings ttl w₁ w' source) rest parts ∧
          content = parts.foldl Content.merge (Content.merge found (r.toOption.getD []))) ∧
          w₁.Before w') :
        ∃ parts, List.Forall₂ (Field.Contributes api settings ttl w w' source) (field :: rest) parts ∧
          content = parts.foldl Content.merge found := by
      obtain ⟨⟨parts, behind, eq⟩, before⟩ := h
      exact ⟨_ :: parts, .cons (contributes.mono (.refl w) before)
        (behind.imp fun _ _ h => h.mono after (.refl w')), eq⟩
    cases r
    all_goals exact (rest_contributes _).mono put fun _ _ _ => id

-- The content of a source is the union of what its fields gave, in their order.
variable (api settings ttl w w') in
def Gathers (source : Source) (content : Content) : Prop :=
  ∃ parts, List.Forall₂ (Field.Contributes api settings ttl w w' source) source.supported parts ∧
    Content.IsUnion parts content

theorem Gathers.mono {content : Content} (h : source.Gathers api settings ttl v v' content)
    (after : w.Before v) (before : v'.Before w') : source.Gathers api settings ttl w w' content :=
  have ⟨parts, contribute, union⟩ := h
  ⟨parts, contribute.imp fun _ _ h => h.mono after before, union⟩

theorem resolve_gathers (ordinary : ∀ field ∈ source.fields, field.IsOrdinary) :
    (source.resolve settings ttl).Ensures api s w
      (fun content _ w' => source.Gathers api settings ttl w w' content) fun _ _ _ => False := by
  rw [resolve_supported]
  apply (resolveFields_contributes (fun field mem => ordinary field (mem_of_mem_supported mem)) []).bind
  intro _ s' w' ⟨parts, contribute, eq⟩
  have named : ∀ part ∈ parts, Content.IsNamed part := by
    intro part mem
    have ⟨_, _, contributes⟩ := exists_of_forall₂ contribute mem
    exact contributes.gives.isNamed
  have ⟨content, inOrder, union⟩ := Content.exists_isUnion named
  rw [eq, inOrder]
  exact (Op.ensures_pure _).mpr ⟨parts, contribute, union⟩

end Source

namespace Content

variable {sources : List Source}

theorem resolveInTurn_gathers (ordinary : ∀ source ∈ sources, ∀ field ∈ source.fields, field.IsOrdinary) :
    (resolveInTurn settings ttl sources).Ensures api s w
      (fun contents _ w' => List.Forall₂ (Source.Gathers api settings ttl w w') sources contents)
      fun _ _ _ => False := by
  induction sources generalizing s w
  case nil => exact (Op.ensures_pure _).mpr .nil
  case cons source rest hi =>
    have ⟨first, others⟩ := List.forall_mem_cons.mp ordinary
    apply (Source.resolve_gathers first).before.bind
    intro content s₁ w₁ ⟨gathers, after⟩
    apply (hi others).before.bind
    intro contents s' w' ⟨behind, before⟩
    exact (Op.ensures_pure _).mpr (.cons (gathers.mono (.refl w) before)
      (behind.imp fun _ _ h => h.mono after (.refl w')))

theorem resolveApart_gathers (ordinary : ∀ field ∈ source.fields, field.IsOrdinary) :
    (resolveApart settings ttl source).Ensures api s w
      (fun content _ w' => source.Gathers api settings ttl w w' content) fun _ _ _ => False := by
  apply Op.ensures_bind.mpr
  apply Op.ensures_get.mpr
  apply Op.ensures_bind.mpr
  apply (Op.ensures_modify _).mpr
  apply (Source.resolve_gathers ordinary).attempt.bind
  intro r s' w' ⟨content, eq, gathers⟩
  apply Op.ensures_bind.mpr
  apply (Op.ensures_modify _).mpr
  rw [eq]
  exact (Op.ensures_pure content).mpr gathers

theorem resolveAll_gathers (ordinary : ∀ source ∈ sources, ∀ field ∈ source.fields, field.IsOrdinary) :
    (resolveAll settings ttl sources).Ensures api s w
      (fun results _ w' => ∃ contents, results = contents.map .ok ∧
        List.Forall₂ (Source.Gathers api settings ttl w w') sources contents)
      fun _ _ _ => False := by
  induction sources generalizing s w
  case nil => exact (Op.ensures_pure _).mpr ⟨[], rfl, .nil⟩
  case cons source rest hi =>
    have ⟨first, others⟩ := List.forall_mem_cons.mp ordinary
    apply (resolveApart_gathers first).attempt.before.bind
    intro r s₁ w₁ ⟨⟨content, eq, gathers⟩, after⟩
    apply (hi others).before.bind
    intro results s' w' ⟨⟨contents, eqs, behind⟩, before⟩
    apply (Op.ensures_pure _).mpr
    apply Exists.intro (content :: contents)
    exact ⟨by rw [eq, eqs, List.map_cons], .cons (gathers.mono (.refl w) before)
      (behind.imp fun _ _ h => h.mono after (.refl w'))⟩

theorem resolveSources_gathers
    (ordinary : ∀ source ∈ sources, ∀ field ∈ source.fields, field.IsOrdinary) :
    (resolveSources settings ttl sources).Ensures api s w
      (fun contents _ w' => List.Forall₂ (Source.Gathers api settings ttl w w') sources contents)
      fun _ _ _ => False := by
  simp only [resolveSources]
  split
  case isTrue => exact resolveInTurn_gathers ordinary
  case isFalse =>
    apply (resolveAll_gathers ordinary).bind
    rintro _ s' w' ⟨contents, rfl, gathers⟩
    have inTurn : (contents.map Except.ok).mapM (fun result : Result Content => result) = .ok contents := by
      rw [List.mapM_map]
      exact (Result.mapM_eq_ok_map fun _ _ => rfl).trans (congrArg _ (List.map_id contents))
    rw [inTurn]
    exact (Op.ensures_pure contents).mpr gathers

end Content

end

-- The fields that are resolved for sources, each with its source.
def Source.declaredFields (sources : List Source) : List (Source × Field) :=
  sources.flatMap fun source => source.supported.map fun field => (source, field)

namespace Content

section

variable {τ κ : Type} [Timeline τ] {api : Api κ} {settings : Settings τ} {ttl : Span τ}
  {w w' : World τ κ} {sources : List Source} {contents parts : List Content} {content : Content}

-- The contents of sources with the parts that they are the unions of.
theorem exists_groups (h : List.Forall₂ (Source.Gathers api settings ttl w w') sources contents) :
    ∃ groups : List (List Content × Content), groups.map Prod.snd = contents ∧
      (∀ group ∈ groups, IsUnion group.1 group.2) ∧
      List.Forall₂ (fun declared => Field.Contributes api settings ttl w w' declared.1 declared.2)
        (Source.declaredFields sources) (groups.flatMap Prod.fst) := by
  induction h
  case nil => exact ⟨[], rfl, List.forall_mem_nil _, .nil⟩
  case cons source content _ _ gathers _ hi =>
    have ⟨parts, contribute, union⟩ := gathers
    have ⟨groups, eq, unions, behind⟩ := hi
    have first : List.Forall₂ (fun declared => Field.Contributes api settings ttl w w' declared.1 declared.2)
        (source.supported.map fun field => (source, field)) parts :=
      List.forall₂_map_left_iff.mpr contribute
    exact ⟨(parts, content) :: groups, congrArg _ eq, List.forall_mem_cons.mpr ⟨union, unions⟩,
      List.rel_append first behind⟩

theorem assemble_contributes
    (ordinary : ∀ source ∈ sources, ∀ field ∈ source.fields, field.IsOrdinary) {s : Session τ} :
    (assemble settings ttl sources).Ensures api s w
      (fun content _ w' => ∃ parts,
        List.Forall₂ (fun declared => Field.Contributes api settings ttl w w' declared.1 declared.2)
          (Source.declaredFields sources) parts ∧ IsUnion parts content)
      fun _ _ _ => False := by
  apply (resolveSources_gathers ordinary).bind
  intro contents s' w' gathers
  have named : ∀ part ∈ contents, IsNamed part := by
    intro part mem
    have ⟨_, _, _, _, union⟩ := exists_of_forall₂ gathers mem
    exact union.isNamed
  have ⟨groups, eq, unions, contribute⟩ := exists_groups gathers
  have ⟨content, inOrder, union⟩ := exists_isUnion named
  rw [inOrder]
  exact (Op.ensures_pure content).mpr ⟨_, contribute, (eq ▸ union).flatten unions⟩

end

theorem exists_encode {content : Content} (h : ∀ entry ∈ content, ∃ b, entry.2 = .bytes b) :
    ∃ data, content.encode = .ok data := by
  induction content
  case nil => exact ⟨[], rfl⟩
  case cons entry rest hi =>
    have ⟨⟨b, eq⟩, others⟩ := List.forall_mem_cons.mp h
    have ⟨data, encoded⟩ := hi others
    simp only [encode] at encoded ⊢
    rw [List.mapM_cons, encoded, eq]
    exact ⟨_, rfl⟩

theorem exists_frameEntry_iff {entry : Key × Payload} (bytes : ∃ b, entry.2 = .bytes b) :
    (∃ b, frameEntry entry = .ok b) ↔ entry.1.IsScalar := by
  have ⟨payload, eq⟩ := bytes
  simp only [frameEntry_eq_ok_iff, utf8?_eq_some_iff, eq]
  constructor
  case mp =>
    rintro ⟨_, name, _, _, text, encoded, _⟩
    exact ⟨name, text, encoded.left⟩
  case mpr =>
    rintro ⟨name, text, scalar⟩
    exact ⟨_, name, _, payload, text, ⟨scalar, rfl⟩, rfl, rfl⟩

theorem exists_fingerprint_iff_isScalar {content : Content}
    (h : ∀ entry ∈ content, ∃ name payload, entry = (.text name, .bytes payload)) :
    (∃ n, content.fingerprint = .ok n) ↔ ∀ entry ∈ content, entry.1.IsScalar := by
  have ⟨entries, eq⟩ := exists_named fun entry mem =>
    have ⟨name, _, eq⟩ := h entry mem
    ⟨name, congrArg Prod.fst eq⟩
  subst eq
  rw [exists_fingerprint_iff]
  refine forall₂_congr fun entry mem => exists_frameEntry_iff ?_
  have ⟨_, payload, eq⟩ := h entry mem
  exact ⟨payload, congrArg Prod.snd eq⟩

theorem assemble_accepted {τ κ : Type} [Timeline τ] {api : Api κ} {settings : Settings τ} {ttl : Span τ}
    {sources : List Source} {s s' : Session τ} {w w' : World τ κ} {r : Result Content}
    (ordinary : ∀ source ∈ sources, ∀ field ∈ source.fields, field.IsOrdinary)
    (run : (assemble settings ttl sources).Run api s w r s' w') :
    ∃ content parts, r = .ok content ∧
      List.Forall₂ (fun declared => Field.Contributes api settings ttl w w' declared.1 declared.2)
        (Source.declaredFields sources) parts ∧
      IsUnion parts content ∧
      (∃ data, content.encode = .ok data) ∧
      ((∃ n, content.fingerprint = .ok n) ↔ ∀ entry ∈ content, entry.1.IsScalar) ∧
      ∀ entry ∈ content, entry.1.IsScalar ∨
        ∃ declared ∈ Source.declaredFields sources,
          declared.1.backend.Expands ∧ declared.2.key.isGiven = false := by
  have assembled := assemble_contributes ordinary _ _ _ run
  cases r
  case error => cases assembled
  case ok content =>
    have ⟨parts, contribute, union⟩ := assembled
    have gives : ∀ part ∈ parts, ∃ declared ∈ Source.declaredFields sources,
        declared.2.Gives declared.1 part := by
      intro part mem
      have ⟨declared, within, contributes⟩ := exists_of_forall₂ contribute mem
      exact ⟨declared, within, contributes.gives⟩
    have from_part : ∀ entry ∈ content, ∃ declared ∈ Source.declaredFields sources, ∃ part,
        declared.2.Gives declared.1 part ∧ entry ∈ part := by
      intro entry mem
      have named : ∀ part ∈ parts, IsNamed part := by
        intro part mem
        have ⟨_, _, gives⟩ := gives part mem
        exact gives.isNamed
      have ⟨part, within, mem⟩ := union.exists_part named entry mem
      have ⟨declared, mem', gives⟩ := gives part within
      exact ⟨declared, mem', part, gives, mem⟩
    have written : ∀ entry ∈ content, ∃ name payload, entry = (.text name, .bytes payload) := by
      intro entry mem
      have ⟨_, _, _, gives, mem⟩ := from_part entry mem
      exact gives.entries entry mem
    refine ⟨content, parts, rfl, contribute, union, exists_encode ?_,
      exists_fingerprint_iff_isScalar written, ?_⟩
    · intro entry mem
      have ⟨_, payload, eq⟩ := written entry mem
      exact ⟨payload, congrArg Prod.snd eq⟩
    · intro entry mem
      have ⟨declared, within, _, gives, mem⟩ := from_part entry mem
      exact gives.isScalar.imp (fun scalar => scalar entry mem) fun expanded => ⟨declared, within, expanded⟩

def loneSurrogate : Text := [CodePoint.ofNat 0xD800]

-- The settings with a Vault.
def withVault : Settings Int :=
  { Settings.inSeconds with vaultAddress := some "http://vault:8200", vaultToken := some "t" }

-- A Vault that has one secret, with a member whose name is a surrogate.
def oneSecret : (call : RemoteCall) → Result call.Answer
  | .vaultClient _ _ => .ok ()
  | .vaultSecret _ _ =>
    .ok (.object [("data", .object [("data", .object [(loneSurrogate, "x")])])])
  | _ => .error (.remote "no such service")

def besideSources : List Source :=
  [⟨.vault, [{ namedField "app" [] with key := .null }], .null⟩,
    ⟨.plaintext, [namedField "1" "a"], .null⟩]

-- A document with such a name leaves the other field without a fingerprint, too.
theorem assemble_accepted_surrogate :
    ∃ (content : Content) (s' : Session Int) (w w' : World Int Unit),
      (assemble withVault (.lasting 60) besideSources).Run .any ⟨[], .none⟩ w (.ok content) s' w' ∧
      content.get? (.text "a") = some (.bytes [49]) ∧ (∃ data, content.encode = .ok data) ∧
      ¬∃ n, content.fingerprint = .ok n := by
  have ordinary : ∀ source ∈ besideSources, ∀ field ∈ source.fields, field.IsOrdinary := by
    simp [besideSources, namedField, Field.IsOrdinary]
    decide
  have ⟨s', eq⟩ : ∃ s', (assemble withVault (.lasting 60) besideSources).answered
      (still oneSecret) ⟨[], .none⟩ () =
        ((.ok [(.text "a", .bytes [49]), (.text loneSurrogate, .bytes [120])], s'), ()) :=
    ⟨_, rfl⟩
  have ⟨w', run⟩ := Op.exists_run (still oneSecret) (⟨(), []⟩ : World Int Unit) eq
  have ⟨_, _, same, _, _, encoded, fingerprinted, _⟩ := assemble_accepted ordinary run
  cases same
  refine ⟨_, s', _, w', run, rfl, encoded, fun h => ?_⟩
  have ⟨name, eq, scalar⟩ := fingerprinted.mp h (.text loneSurrogate, .bytes [120]) (by simp)
  cases eq
  exact absurd scalar (by decide)

end Content

end SecretSync

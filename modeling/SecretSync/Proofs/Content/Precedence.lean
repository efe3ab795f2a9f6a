import SecretSync.Proofs.Content.Resolution
import SecretSync.Proofs.Settings

/-!
Which field an entry comes from. Of several fields that give a key the one declared first counts, and
fields that fail make no difference, however many workers there are and in whichever order sources are
resolved. Main statement: `assemble_isUnion`.
-/

namespace SecretSync

variable {τ ς : Type} [Timeline τ]

namespace Source

variable {give give' : Source → Field → Result Content} {source : Source}

theorem parts_congr (h : ∀ field ∈ source.fields, give source field = give' source field) :
    source.parts give = source.parts give' :=
  List.filterMap_congr fun field mem => congrArg _ (h field (mem_of_mem_supported mem))

-- The source without the fields that fail.
def succeeding (give : Source → Field → Result Content) (source : Source) : Source :=
  { source with fields := source.fields.filter fun field => (give source field).isOk }

theorem supported_succeeding :
    (source.succeeding give).supported = source.supported.filter fun field => (give source field).isOk := by
  simp only [supported, succeeding]
  cases source.backend
  all_goals rfl

theorem parts_succeeding (same : ∀ field, give' (source.succeeding give) field = give' source field)
    (agree : ∀ field ∈ source.fields, give source field = give' source field) :
    (source.succeeding give).parts give' = source.parts give' := by
  have kept (field : Field) :
      (if (give' source field).isOk = true then (give' source field).toOption else none) =
        (give' source field).toOption := by
    cases give' source field
    all_goals rfl
  have fields : (source.succeeding give).supported =
      source.supported.filter fun field => (give' source field).isOk :=
    supported_succeeding.trans
      (List.filter_congr fun field mem => congrArg _ (agree field (mem_of_mem_supported mem)))
  simp only [parts, same, fields, List.filterMap_filter, kept]

theorem content_succeeding {answer : Lookup → Result Fetched}
    (agree : ∀ field ∈ source.fields, give source field = source.contentOf answer field) :
    (source.succeeding give).content answer = source.content answer := by
  have same := parts_succeeding (fun _ => rfl) agree
  simp only [content, whole, same]

theorem IsTextual.succeeding (h : source.IsTextual) : (source.succeeding give).IsTextual :=
  ⟨⟨h.token, fun field mem => h.profiles field (List.mem_of_mem_filter mem)⟩,
    fun field mem => h.keys field (List.mem_of_mem_filter mem)⟩

end Source

namespace Content

variable {settings : Settings τ} {responder : Responder τ ς} {fits : Connections → Prop}
  {calm : ς → Prop} {outcome : Lookup → Result Fetched} (ttl : Span τ) {sources : List Source}

-- If each source comes to one content from every session that `I` allows, so do all of them together,
-- resolved in turn or apart.
section

variable {I : Session τ → ς → Prop} {each : Source → Result Content} {ttl}
  (resolves : ∀ source ∈ sources, (source.resolve settings ttl).Computes responder I (each source))

include resolves in
theorem resolveInTurn_computesEach :
    (resolveInTurn settings ttl sources).Computes responder I (sources.mapM each) := by
  induction sources
  case nil => exact Op.computes_pure []
  case cons source rest hi =>
    have ⟨first, others⟩ := List.forall_mem_cons.mp resolves
    rw [List.mapM_cons]
    exact first.bind fun _ _ => (hi others).bind fun _ _ => Op.computes_pure _

variable (apart : ∀ {s m}, I s m → I { s with rest := .none } m)
  (back : ∀ {s m s' m'}, I s m → I s' m' → I { s' with rest := s.rest } m')
include apart back

theorem resolveApart_computesEach {source : Source} {r : Result Content}
    (resolves : (source.resolve settings ttl).Computes responder I r) :
    (resolveApart settings ttl source).Computes responder I r := by
  intro s m allowed
  apply Op.Comes.get_bind
  apply Op.Comes.modify_bind
  apply (resolves _ _ (apart allowed)).attempt.bind
  case ok =>
    intro r eq s' m' left
    cases eq
    apply Op.Comes.modify_bind
    exact Op.computes_ofResult _ _ _ (back allowed left)
  case error => nofun

include resolves

theorem resolveAll_computesEach :
    (resolveAll settings ttl sources).Computes responder I (.ok (sources.map each)) := by
  induction sources
  case nil => exact Op.computes_pure []
  case cons source rest hi =>
    have ⟨first, others⟩ := List.forall_mem_cons.mp resolves
    exact (resolveApart_computesEach apart back first).attempt.bind fun _ _ =>
      (hi others).bind fun _ _ => Op.computes_pure _

theorem resolveSources_computesEach :
    (resolveSources settings ttl sources).Computes responder I (sources.mapM each) := by
  simp only [resolveSources]
  split
  case isTrue => exact resolveInTurn_computesEach resolves
  case isFalse =>
    have inTurn : (sources.map each).mapM (fun result => result) = sources.mapM each := List.mapM_map
    rw [← inTurn]
    exact (resolveAll_computesEach resolves apart back).bind fun _ _ => Op.computes_ofResult _

theorem assemble_computesEach :
    (assemble settings ttl sources).Computes responder I
      (do sorted ((← sources.mapM each).foldl merge [])) :=
  (resolveSources_computesEach resolves apart back).bind fun _ _ => Op.computes_ofResult _

end

section

variable (steady : Steady settings responder fits calm outcome)
  (textual : ∀ source ∈ sources, source.IsTextual)
include steady textual

theorem resolveInTurn_computes :
    (resolveInTurn settings ttl sources).Computes responder (Lookup.Sessions ttl outcome fits calm)
      (sources.mapM (Source.whole (Lookup.served ttl outcome))) :=
  resolveInTurn_computesEach fun source mem => Source.resolve_computes ttl steady (textual source mem).toIsPlain

theorem resolveAll_computes :
    (resolveAll settings ttl sources).Computes responder (Lookup.Sessions ttl outcome fits calm)
      (.ok (sources.map (Source.whole (Lookup.served ttl outcome)))) :=
  resolveAll_computesEach
    (fun source mem => Source.resolve_computes ttl steady (textual source mem).toIsPlain)
    (fun trusted => ⟨trusted.cache, steady.fresh, trusted.calm⟩)
    fun trusted left => ⟨left.cache, trusted.rest, left.calm⟩

theorem assemble_computes :
    (assemble settings ttl sources).Computes responder (Lookup.Sessions ttl outcome fits calm)
      (do sorted ((← sources.mapM (Source.whole (Lookup.served ttl outcome))).foldl merge [])) :=
  assemble_computesEach
    (fun source mem => Source.resolve_computes ttl steady (textual source mem).toIsPlain)
    (fun trusted => ⟨trusted.cache, steady.fresh, trusted.calm⟩)
    fun trusted left => ⟨left.cache, trusted.rest, left.calm⟩

end

section

variable (answer : Lookup → Result Fetched) (textual : ∀ source ∈ sources, source.IsTextual)
include textual

theorem mapM_whole : sources.mapM (Source.whole answer) = .ok (sources.map (Source.content answer)) :=
  Result.mapM_eq_ok_map fun source mem => (Source.whole_isUnion answer (textual source mem)).left

theorem exists_content :
    ∃ content, sorted ((sources.map (Source.content answer)).foldl merge []) = .ok content ∧
      IsUnion (sources.flatMap (Source.parts (Source.contentOf answer))) content := by
  have union (source : Source) (mem : source ∈ sources) :=
    (Source.whole_isUnion answer (textual source mem)).right
  have named : ∀ part ∈ sources.map (Source.content answer), IsNamed part := by
    intro part mem
    have ⟨source, mem, eq⟩ := List.mem_map.mp mem
    exact eq ▸ (union source mem).isNamed
  have ⟨content, inOrder, whole⟩ := exists_isUnion named
  exact ⟨content, inOrder, whole.flatten union⟩

end

variable {s : Session τ} {m : ς}

theorem assemble_result (steady : Steady settings responder fits calm outcome)
    (textual : ∀ source ∈ sources, source.IsTextual)
    (trusted : Lookup.Sessions ttl outcome fits calm s m) :
    (assemble settings ttl sources).result responder s m =
      sorted ((sources.map (Source.content (Lookup.served ttl outcome))).foldl merge []) := by
  rw [(assemble_computes ttl steady textual s m trusted).result_eq, mapM_whole _ textual]
  rfl

theorem assemble_isUnion (steady : Steady settings responder fits calm outcome)
    (textual : ∀ source ∈ sources, source.IsTextual) (empty : s.cache = []) (connected : fits s.rest)
    (quiet : calm m) :
    let alone (source : Source) (field : Field) :=
      (field.resolve settings ttl source).result responder s m
    ∃ content, ∃ each : Source → Content,
      (assemble settings ttl sources).result responder s m = .ok content ∧
      IsUnion (sources.flatMap (Source.parts alone)) content ∧
      (assemble settings ttl (sources.map (Source.succeeding alone))).result responder s m = .ok content ∧
      sorted ((sources.map each).foldl merge []) = .ok content ∧
      ∀ order : List Source, order.Perm sources →
        (resolveInTurn settings ttl order).result responder s m = .ok (order.map each) ∧
        (resolveAll settings ttl order).result responder s m =
          .ok (order.map fun source => .ok (each source)) := by
  intro alone
  let answer := Lookup.served ttl outcome
  have trusted : Lookup.Sessions ttl outcome fits calm s m := ⟨by simp [empty], connected, quiet⟩
  have alone_eq : ∀ source ∈ sources, ∀ field ∈ source.fields,
      alone source field = source.contentOf answer field := by
    intro source mem field mem'
    have resolved := Field.resolve_computes ttl steady (textual source mem).toIsPlain mem'
    exact (resolved s m trusted).result_eq
  have ⟨content, inOrder, union⟩ := exists_content answer textual
  have assembled := (assemble_result ttl steady textual trusted).trans inOrder
  refine ⟨content, Source.content answer, assembled, ?union, ?fewer, inOrder, ?order⟩
  case union =>
    have parts_eq : ∀ source ∈ sources, source.parts alone = source.parts (Source.contentOf answer) :=
      fun source mem => Source.parts_congr (alone_eq source mem)
    rw [List.flatMap_congr parts_eq]
    exact union
  case fewer =>
    have textual' : ∀ source ∈ sources.map (Source.succeeding alone), source.IsTextual := by
      intro source mem
      have ⟨declared, mem, eq⟩ := List.mem_map.mp mem
      exact eq ▸ (textual declared mem).succeeding
    have same : ∀ source ∈ sources, (source.succeeding alone).content answer = source.content answer :=
      fun source mem => Source.content_succeeding (alone_eq source mem)
    rw [assemble_result ttl steady textual' trusted, List.map_map]
    exact List.map_congr_left same ▸ inOrder
  case order =>
    intro order perm
    have textual : ∀ source ∈ order, source.IsTextual :=
      fun source mem => textual source (perm.mem_iff.mp mem)
    have inTurn := (resolveInTurn_computes ttl steady textual s m trusted).result_eq
    have apart := (resolveAll_computes ttl steady textual s m trusted).result_eq
    refine ⟨inTurn.trans (mapM_whole _ textual), apart.trans (congrArg _ (List.map_congr_left ?_))⟩
    exact fun source mem => (Source.whole_isUnion answer (textual source mem)).left

-- A parameter store that has one parameter.
def oneParameter : (call : RemoteCall) → Result call.Answer
  | .awsSession => .ok ()
  | .awsClient _ _ _ => .ok ()
  | .parameter (.text name) =>
    if name = Text.ofString "known" then .ok (.object [("Parameter", .object [("Value", "one")])])
    else .error (.remote "no such parameter")
  | _ => .error (.remote "no such service")

-- The answers of remote services that never change, at a time that does not pass.
def still (told : (call : RemoteCall) → Result call.Answer) : Responder Int Unit
  | .cluster _ => fun m => (.error (.refused 404), m)
  | .remote call => fun m => (told call, m)
  | .now => fun m => (0, m)
  | .wait _ => fun m => ((), m)

def namedField (value key : Text) : Field where
  value
  key := .text key
  isJson := false
  remotePath := .null
  outputKey := .null
  profile := .null
  version := .null

def fallbackSources : List Source :=
  [⟨.ssm, [namedField "unknown" "a", namedField "known" "b"], .null⟩,
    ⟨.plaintext, [namedField "2" "a", namedField "3" "b"], .null⟩,
    ⟨.ssm, [namedField "known" "c"], .null⟩]

-- The first field fails, so the key falls to a later one, while the other key stays with the first.
theorem assemble_isUnion_fallback :
    ∃ content, (assemble Settings.inSeconds (.lasting 60) fallbackSources).result (still oneParameter)
        ⟨[], .none⟩ () = .ok content ∧
      content.get? (.text "a") = some (.bytes [50]) ∧
      content.get? (.text "b") = some (.bytes [111, 110, 101]) ∧
      content.get? (.text "c") = some (.bytes [111, 110, 101]) := by
  have tells : (still oneParameter).Tells oneParameter := fun _ _ => rfl
  have ⟨outcome, steady⟩ := exists_steady Settings.inSeconds tells
  have textual : ∀ source ∈ fallbackSources, source.IsTextual := by
    have each (source : Source) (token : source.pulumiToken = .null)
        (fields : ∀ field ∈ source.fields, ∃ value key, field = namedField value key) :
        source.IsTextual := by
      refine ⟨⟨.inl token, fun field mem => ?_⟩, fun field mem => ?_⟩
      all_goals
        have ⟨value, key, eq⟩ := fields field mem
        subst eq
      · exact .inl rfl
      · exact .inr ⟨key, rfl⟩
    simp [fallbackSources, each]
  have ⟨content, _, assembled, union, _⟩ := assemble_isUnion (s := ⟨[], .none⟩) (m := ()) (.lasting 60)
    steady textual rfl (Connections.fits_none _) trivial
  exact ⟨content, assembled, union.holds _, union.holds _, union.holds _⟩

end Content
end SecretSync

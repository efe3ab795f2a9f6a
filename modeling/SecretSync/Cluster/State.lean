import SecretSync.Cluster.Call
import SecretSync.Number.Reader

/-!
A cluster as the operator relies on it. A secret can be created once, a patch sets labels and data
and removes the data that it says so of, and a change to a resource that names a version is refused
when the resource has another one. Each change gives the resource a higher version. Labels are
texts; a patch with any other label changes nothing.
-/

namespace SecretSync

structure Cluster where
  secrets : Table ResourceId Secret
  objects : Table ResourceId Value

namespace Cluster

def notFound : Fault := .refused 404

def conflict : Fault := .refused 409

def setMember (name : Text) (member : Value) : Value → Value
  | .object members => .object (Table.put name member members)
  | v => v

def removeMember (name : Text) : Value → Value
  | .object members => .object (Table.remove name members)
  | v => v

def metadata (body : Value) : Value :=
  match body.member "metadata" with
  | .ok v => v
  | .error _ => .null

def version (body : Value) : Value :=
  match (metadata body).member "resourceVersion" with
  | .ok v => v
  | .error _ => .null

-- The version after another one. Both have to be numbers that a numeral can denote.
def nextVersion (v : Value) : Result Value := do
  let next ← Result.ofOption .unreadable (Numeral.ofInt? ((← v.toInt) + 1))
  pure (.text next)

def withVersion (v : Value) (body : Value) : Value :=
  setMember "metadata" (setMember "resourceVersion" v (metadata body)) body

def withFinalizers (finalizers : Option (List Value)) (body : Value) : Value :=
  let changed := match finalizers with
    | some items => setMember "finalizers" (.list items) (metadata body)
    | none => removeMember "finalizers" (metadata body)
  setMember "metadata" changed body

def patchData (data : EncodedData) (patch : Table Key (Option Text)) : EncodedData :=
  patch.foldl (fun d (key, change) =>
    match change with
    | some t => d.put key t
    | none => d.remove key) data

def patchedSecret (s : Secret) (patch : SecretPatch) : Secret where
  labels := some ((s.labels.getD []).putAll patch.labels)
  data := some (patchData (s.data.getD []) patch.data)

def accepts (body : Value) (patch : ObjectPatch) : Bool :=
  match patch.resourceVersion with
  | some v => v.same (version body)
  | none => true

def putSecret (id : ResourceId) (s : Secret) (c : Cluster) : Cluster :=
  { c with secrets := c.secrets.put id s }

def hasVersion (body : Value) : Bool :=
  match metadata body with
  | .object members => Table.has (Text.ofString "resourceVersion") members
  | _ => false

-- Stores a body. One that tells no version gets the version after that of the body it replaces.
def putObject (id : ResourceId) (body : Value) (c : Cluster) : Result Cluster := do
  let stored ←
    if hasVersion body then pure body
    else do
      let version ← match c.objects.get? id with
        | some old => nextVersion (version old)
        | none => pure "1"
      pure (withVersion version body)
  pure { c with objects := c.objects.put id stored }

-- Changes the finalizers of a body, and then its version, which has to be a number.
def patchObject (id : ResourceId) (body : Value) (patch : ObjectPatch) (c : Cluster) :
    Result Value × Cluster :=
  let changed := withFinalizers patch.finalizers body
  match nextVersion (version body) with
  | .ok v =>
    let changed := withVersion v changed
    (.ok changed, { c with objects := c.objects.put id changed })
  | .error fault => (.error fault, { c with objects := c.objects.put id changed })

def removeObject (id : ResourceId) (c : Cluster) : Cluster :=
  { c with objects := c.objects.remove id }

def answer (call : ClusterCall) (c : Cluster) : Result call.Answer × Cluster :=
  match call with
  | .readSecret id =>
    match c.secrets.get? id with
    | some s => (.ok s, c)
    | none => (.error notFound, c)
  | .createSecret id manifest =>
    if c.secrets.has id then (.error conflict, c)
    else (.ok (), c.putSecret id { labels := some manifest.labels, data := some manifest.data })
  | .patchSecret id patch =>
    match c.secrets.get? id with
    | some s =>
      if patch.labels.areTexts then (.ok (), c.putSecret id (patchedSecret s patch))
      else (.error .wrongKind, c)
    | none => (.error notFound, c)
  | .deleteSecret id =>
    if c.secrets.has id then (.ok (), { c with secrets := c.secrets.remove id })
    else (.error notFound, c)
  | .getObject id =>
    match c.objects.get? id with
    | some body => (.ok body, c)
    | none => (.error notFound, c)
  | .patchObject id patch =>
    match c.objects.get? id with
    | some body =>
      if accepts body patch then c.patchObject id body patch else (.error conflict, c)
    | none => (.error notFound, c)

end Cluster

end SecretSync

import SecretSync.Proofs.Json.Ascii
import SecretSync.Value.Contribution

/-!
The text that a part of a document stands for. Main statement: `toText_eq`.
-/

namespace SecretSync.Value

-- The text that a part of a document stands for.
def written : Value → Text
  | null => []
  | text t => t
  | v => Json.render v

-- The UTF-8 form of that text.
def contribution (v : Value) : Bytes :=
  v.written.flatMap CodePoint.utf8

namespace IsJson

variable {v : Value} {Kind : Text → Prop}

theorem toText_eq (json : v.IsJson Kind) : v.toText = .ok v.written := by
  have printed := json.print_eq
  cases json
  case null => rfl
  case text => rfl
  all_goals exact printed

-- A value other than a text stands for ASCII.
theorem isScalar_written (json : v.IsJson Kind) (scalar : ∀ t, v = .text t → t.isScalar = true) :
    v.written.isScalar = true := by
  have ascii := (Json.isAscii_render json).isScalar
  cases json
  case null => rfl
  case text t _ => exact scalar t rfl
  all_goals exact ascii

theorem encodeText_written (json : v.IsJson Kind) (scalar : ∀ t, v = .text t → t.isScalar = true) :
    encodeText v.written = .ok v.contribution := by
  rw [encodeText, Text.utf8?, if_pos (json.isScalar_written scalar)]
  rfl

theorem written_ne_nil (json : v.IsJson Kind) (notNull : v ≠ .null) (nonempty : v ≠ .text []) : v.written ≠ [] := by
  have ⟨c, cs, eq, _⟩ := Json.exists_begins json
  have rendered : Json.render v ≠ [] := eq ▸ List.cons_ne_nil c cs
  cases json
  case null => exact absurd rfl notNull
  case text t _ =>
    intro empty
    exact nonempty (congrArg _ empty)
  all_goals exact rendered

theorem parse_written (json : v.IsJson Text.IsJoined) (shallow : v.depth ≤ Json.maxDepth) (notText : ∀ t, v ≠ .text t)
    (notNull : v ≠ .null) : Json.parse v.written = .ok v := by
  have read := Json.parse_render_of_shallow json shallow
  cases json
  case null => exact absurd rfl notNull
  case text t _ => exact absurd rfl (notText t)
  all_goals exact read

end IsJson

end SecretSync.Value

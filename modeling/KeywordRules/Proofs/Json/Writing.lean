import KeywordRules.Json.Writer
import KeywordRules.Proofs.Text.Words

/-!
# Written texts stay on one line

Controls are escaped in strings, and nothing else of what is written has one.  So a written object holds no line break
(`uncontrolled_writeObject`).
-/

namespace KeywordRules.Json

/-- No character is a control below the blank, a line break for one. -/
def Uncontrolled (t : Text) : Prop := ∀ c ∈ t, 32 ≤ c.toNat

instance (t : Text) : Decidable (Uncontrolled t) := List.decidableBAll _ t

theorem uncontrolled_append {t u : Text} : Uncontrolled (t ++ u) ↔ Uncontrolled t ∧ Uncontrolled u :=
  List.forall_mem_append

theorem uncontrolled_cons {c : Char} {t : Text} : Uncontrolled (c :: t) ↔ 32 ≤ c.toNat ∧ Uncontrolled t :=
  List.forall_mem_cons

theorem le_toNat_digitChar : ∀ n < 16, 32 ≤ (Nat.digitChar n).toNat := by decide

theorem uncontrolled_escapeChar (c : Char) : Uncontrolled (escapeChar c) := by
  unfold escapeChar
  split
  case h_8 =>
    by_cases hcontrol : c.toNat < 32
    · rw [if_pos hcontrol]
      have hhigh := le_toNat_digitChar (c.toNat / 16) (by omega)
      have hlow := le_toNat_digitChar (c.toNat % 16) (by omega)
      have hmark : Uncontrolled ['\\', 'u', '0', '0'] := by decide
      have hdigits : Uncontrolled [Nat.digitChar (c.toNat / 16), Nat.digitChar (c.toNat % 16)] := by
        simp only [Uncontrolled, List.forall_mem_cons, hhigh, hlow, true_and]
        exact List.forall_mem_nil _
      exact uncontrolled_append.mpr ⟨hmark, hdigits⟩
    · rw [if_neg hcontrol]
      exact List.forall_mem_singleton.mpr (Nat.not_lt.mp hcontrol)
  all_goals decide

theorem uncontrolled_writeString (t : Text) : Uncontrolled (writeString t) := by
  have hescaped : Uncontrolled (t.flatMap escapeChar) := by
    intro c hc
    obtain ⟨d, _, hd⟩ := List.mem_flatMap.mp hc
    exact uncontrolled_escapeChar d c hd
  exact uncontrolled_cons.mpr ⟨by decide, uncontrolled_append.mpr ⟨hescaped, by decide⟩⟩

theorem uncontrolled_writeNullable (t? : Option Text) : Uncontrolled (writeOption writeString t?) := by
  cases t? with
  | none => decide
  | some t => exact uncontrolled_writeString t

theorem uncontrolled_writeField {e : Text × Text} (h : Uncontrolled e.2) : Uncontrolled (writeField e) :=
  uncontrolled_append.mpr ⟨uncontrolled_writeString e.1, uncontrolled_cons.mpr ⟨by decide, h⟩⟩

theorem uncontrolled_intercalate {ts : List Text} (h : ∀ t ∈ ts, Uncontrolled t) : Uncontrolled ([','].intercalate ts) := by
  cases ts with
  | nil => decide
  | cons t ts =>
    obtain ⟨ht, hts⟩ := List.forall_mem_cons.mp h
    rw [intercalate_cons]
    refine uncontrolled_append.mpr ⟨ht, ?_⟩
    intro c hc
    obtain ⟨u, hu, hcu⟩ := List.mem_flatMap.mp hc
    exact uncontrolled_cons.mpr ⟨by decide, hts u hu⟩ c hcu

theorem uncontrolled_writeObject {entries : List (Text × Text)} (h : ∀ e ∈ entries, Uncontrolled e.2) :
    Uncontrolled (writeObject entries) := by
  have hfields : ∀ t ∈ entries.map writeField, Uncontrolled t := by
    intro t ht
    obtain ⟨e, he, rfl⟩ := List.mem_map.mp ht
    exact uncontrolled_writeField (h e he)
  exact uncontrolled_cons.mpr ⟨by decide, uncontrolled_append.mpr ⟨uncontrolled_intercalate hfields, by decide⟩⟩

end KeywordRules.Json

import Dashboard.Document.Guard
import Dashboard.Proofs.Number.Numerals
import Dashboard.Proofs.Text.Blank
import Dashboard.Proofs.Text.Lines
/-!
# The form of guards

Every guard begins with the state of a component, perhaps negated, and stays on its line. The id of
a component has neither blanks nor parentheses.
-/

namespace Dashboard

open Text Number

theorem Entity.isAlphanum_slugChar (c : Char) :
    (Entity.slugChar c).isAlphanum = true ∨ Entity.slugChar c = '_' := by
  unfold Entity.slugChar
  split
  · exact .inl ‹_›
  · exact .inr rfl

theorem Entity.mem_componentId {entity : String} {c : Char}
    (h : c ∈ (Entity.componentId entity).toList) : c.isAlphanum = true ∨ c = '_' := by
  rw [Entity.componentId, String.toList_ofList] at h
  obtain ⟨d, -, rfl⟩ := List.mem_map.mp h
  exact Entity.isAlphanum_slugChar d

theorem Entity.not_mem_componentId {c : Char} (hc : c.isAlphanum = false) (hne : c ≠ '_')
    (entity : String) : c ∉ (Entity.componentId entity).toList := by
  intro h
  rcases Entity.mem_componentId h with h | h
  · exact absurd h (by simp [hc])
  · exact hne h

theorem oneLine_componentId (entity : String) : OneLine (Entity.componentId entity) :=
  Entity.not_mem_componentId (by decide) (by decide) entity

theorem Entity.normalize?_of_normalize? {raw entity : String} (h : Entity.normalize? raw = some entity) :
    Entity.normalize? entity = some entity := by
  obtain ⟨t, ht, he⟩ := Option.map_eq_some_iff.mp h
  have hagain := nonBlank?_of_nonBlank? ht
  cases hdot : t.toList.contains '.' with
  | true =>
    rw [hdot, if_pos rfl] at he
    subst he
    rw [Entity.normalize?, hagain, Option.map_some, hdot, if_pos rfl]
  | false =>
    rw [hdot, if_neg Bool.false_ne_true] at he
    subst he
    have htrim : trimChars ("sensor." ++ t).toList = ("sensor." ++ t).toList := by
      obtain ⟨hself, hne⟩ := nonBlank?_eq_some hagain
      have hchars : trimChars t.toList = t.toList := by
        rw [← hself, trim, String.toList_ofList, trimChars_trimChars]
      rcases trimChars_cases t.toList with hnil | ⟨-, front, c, hconcat, hc⟩
      · exact absurd (String.toList_inj.mp ((hchars.symm.trans hnil).trans rfl)) hne
      · rw [hchars] at hconcat
        rw [String.toList_append, hconcat, ← List.append_assoc]
        change dropBlankEnd ("sensor.".toList ++ front ++ [c]) = _
        exact dropBlankEnd_concat hc _
    have hnonBlank : nonBlank? ("sensor." ++ t) = some ("sensor." ++ t) := by
      refine nonBlank?_of_trim ?_ fun hempty => ?_
      · rw [trim, htrim, String.ofList_toList]
      · exact absurd (congrArg String.toList hempty) (by simp)
    have hcontains : ("sensor." ++ t).toList.contains '.' = true := by simp
    rw [Entity.normalize?, hnonBlank, Option.map_some, hcontains, if_pos rfl]

namespace Condition

/-- A comparison of the state of an entity that stays on its line. -/
def IsTest (entity g : String) : Prop :=
  ∃ rest, OneLine rest ∧ (g = stateOf entity ++ rest ∨ g = "!" ++ (stateOf entity ++ rest))

theorem oneLine_plainText (x : Binary64) : OneLine x.plainText := x.newline_not_mem_plainText

theorem isTest_bounded (entity : String) {comparison : String} (h : OneLine comparison)
    (x : Binary64) : IsTest entity (bounded (stateOf entity) comparison x) := by
  refine ⟨" " ++ comparison ++ " " ++ x.plainText, ?_, .inl ?_⟩
  · exact (((by decide : OneLine " ").append h).append (by decide)).append (oneLine_plainText x)
  · simp only [bounded, String.append_assoc]

theorem oneLine_stateOf (entity : String) : OneLine (stateOf entity) :=
  (OneLine.append (by decide) (oneLine_componentId entity)).append (by decide)

theorem oneLine_bounded (entity : String) {comparison : String} (h : OneLine comparison)
    (x : Binary64) : OneLine (bounded (stateOf entity) comparison x) :=
  ((((oneLine_stateOf entity).append (by decide)).append h).append (by decide)).append
    (oneLine_plainText x)

theorem isTest_rangeGuard {c : Condition} {entity g : String}
    (h : c.rangeGuard? (stateOf entity) = some g) : IsTest entity g := by
  unfold rangeGuard? at h
  split at h
  · rename_i l u _ _
    refine ⟨" >= " ++ l.plainText ++ " && " ++ bounded (stateOf entity) "<=" u, ?_, .inl ?_⟩
    · exact (((by decide : OneLine " >= ").append (oneLine_plainText l)).append (by decide)).append
        (oneLine_bounded entity (by decide) u)
    · have hsplit : " >= " = " " ++ (">=" ++ " ") := by decide
      rw [← Option.some.inj h, hsplit]
      simp only [bounded, String.append_assoc]
  · exact Option.some.inj h ▸ isTest_bounded entity (by decide) _
  · exact Option.some.inj h ▸ isTest_bounded entity (by decide) _
  · exact nomatch h

theorem isTest_binaryGuard {entity op g : String} {expected : Option String}
    (h : binaryGuard? (stateOf entity) op expected = some g) : IsTest entity g := by
  unfold binaryGuard? at h
  split at h
  · exact nomatch h
  · obtain ⟨on, -, rfl⟩ := Option.map_eq_some_iff.mp h
    refine ⟨"", by decide, ?_⟩
    rw [String.append_empty]
    split
    · exact .inl rfl
    · exact .inr rfl

theorem oneLine_of_isEquality {op : String} (h : isEquality op = true) : OneLine op := by
  simp only [isEquality, Bool.or_eq_true, beq_iff_eq] at h
  rcases h with rfl | rfl <;> decide

theorem oneLine_of_isComparison {op : String} (h : isComparison op = true) : OneLine op := by
  simp only [isComparison, Bool.or_eq_true, beq_iff_eq] at h
  rcases h with (((h | rfl) | rfl) | rfl) | rfl
  · exact oneLine_of_isEquality h
  all_goals decide

theorem isTest_textGuard {entity op g : String} {expected : Option String}
    (h : textGuard? (stateOf entity) op expected = some g) : IsTest entity g := by
  unfold textGuard? at h
  split at h
  · exact nomatch h
  · rename_i hop
    have hequality : isEquality op = true := by simpa using hop
    refine ⟨" " ++ op ++ " " ++ literal (expected.getD ""), ?_, .inl ?_⟩
    · exact (((by decide : OneLine " ").append (oneLine_of_isEquality hequality)).append
        (by decide)).append (.literal _)
    · rw [← Option.some.inj h]
      simp only [String.append_assoc]

theorem isTest_guardFor {c : Condition} {entity g : String} (h : c.guardFor? entity = some g) :
    IsTest entity g := by
  unfold guardFor? at h
  simp only at h
  split at h
  · exact isTest_rangeGuard h
  · split at h
    · exact nomatch h
    · rename_i hop
      have hcomparison : isComparison c.operatorOf = true := by simpa using hop
      split at h
      · exact isTest_binaryGuard h
      · split at h
        · exact isTest_textGuard h
        · obtain ⟨x, -, rfl⟩ := Option.map_eq_some_iff.mp h
          exact isTest_bounded entity (oneLine_of_isComparison hcomparison) x

theorem isTest_of_guard? {c : Condition} {g : String} (h : c.guard? = some g) :
    ∃ entity, IsTest entity g := by
  obtain ⟨entity, -, h⟩ := Option.bind_eq_some_iff.mp h
  exact ⟨entity, isTest_guardFor h⟩

end Condition

end Dashboard

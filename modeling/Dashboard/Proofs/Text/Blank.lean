import Dashboard.Text.Ascii
import Dashboard.Text.Pattern
/-!
# Blanks around a text

Trimming passes over blanks at the ends and never goes past a character that is not blank. Word
readers do not see the blanks before a word.
-/

namespace Dashboard.Text

theorem skipBlank_append {front : List Char} (h : ∀ c ∈ front, isBlank c = true) (cs : List Char) :
    skipBlank (front ++ cs) = skipBlank cs := by
  induction front with
  | nil => rfl
  | cons c front ih =>
    rw [List.cons_append, skipBlank, List.dropWhile_cons_of_pos (h c List.mem_cons_self)]
    exact ih fun d hd => h d (List.mem_cons_of_mem c hd)

theorem skipBlank_cons {c : Char} (h : isBlank c = false) (cs : List Char) :
    skipBlank (c :: cs) = c :: cs :=
  List.dropWhile_cons_of_neg (by simp [h])

theorem skipBlank_indent (n : Nat) (cs : List Char) :
    skipBlank (List.replicate n ' ' ++ cs) = skipBlank cs :=
  skipBlank_append (fun _ hc => List.eq_of_mem_replicate hc ▸ rfl) cs

theorem dropBlankEnd_append {c : Char} (h : isBlank c = false) (front cs : List Char) :
    dropBlankEnd (front ++ c :: cs) = front ++ c :: dropBlankEnd cs := by
  have key : ∀ back rest : List Char, skipBlank (back ++ c :: rest) = skipBlank back ++ c :: rest := by
    intro back rest
    induction back with
    | nil => exact skipBlank_cons h rest
    | cons d back ih =>
      cases hd : isBlank d with
      | true =>
        rw [List.cons_append, skipBlank, skipBlank, List.dropWhile_cons_of_pos hd,
          List.dropWhile_cons_of_pos hd]
        exact ih
      | false => rw [List.cons_append, skipBlank_cons hd, skipBlank_cons hd, List.cons_append]
  rw [dropBlankEnd, List.reverse_append, List.reverse_cons, List.append_assoc, List.singleton_append,
    key, List.reverse_append, List.reverse_cons, List.reverse_reverse, List.append_assoc,
    List.singleton_append]
  rfl

theorem dropBlankEnd_concat {c : Char} (h : isBlank c = false) (front : List Char) :
    dropBlankEnd (front ++ [c]) = front ++ [c] := dropBlankEnd_append h front []

theorem trimChars_cons {c : Char} (h : isBlank c = false) (cs : List Char) :
    trimChars (c :: cs) = c :: dropBlankEnd cs := by
  rw [trimChars, skipBlank_cons h]
  exact dropBlankEnd_append h [] cs

theorem trimChars_indent (n : Nat) (cs : List Char) :
    trimChars (List.replicate n ' ' ++ cs) = trimChars cs := by
  rw [trimChars, trimChars, skipBlank_indent]

theorem trimChars_eq {cs : List Char} (h : ∀ c ∈ cs, isBlank c = false) : trimChars cs = cs := by
  rcases List.eq_nil_or_concat cs with rfl | ⟨front, c, rfl⟩
  · rfl
  · have hc : isBlank c = false := h c (by simp)
    have hskip : skipBlank (front ++ [c]) = front ++ [c] := by
      cases front with
      | nil => exact skipBlank_cons hc []
      | cons d front => exact skipBlank_cons (h d List.mem_cons_self) _
    rw [trimChars, List.concat_eq_append, hskip, dropBlankEnd_concat hc]

theorem skipBlank_cases (cs : List Char) :
    skipBlank cs = [] ∨ ∃ c rest, skipBlank cs = c :: rest ∧ isBlank c = false := by
  induction cs with
  | nil => exact .inl rfl
  | cons c cs ih =>
    cases hc : isBlank c with
    | true =>
      have hskip : skipBlank (c :: cs) = skipBlank cs := List.dropWhile_cons_of_pos hc
      rwa [hskip]
    | false => exact .inr ⟨c, cs, skipBlank_cons hc cs, hc⟩

theorem dropBlankEnd_cases (cs : List Char) :
    dropBlankEnd cs = [] ∨ ∃ front c, dropBlankEnd cs = front ++ [c] ∧ isBlank c = false := by
  rcases skipBlank_cases cs.reverse with h | ⟨c, rest, h, hc⟩
  · exact .inl (by rw [dropBlankEnd, h, List.reverse_nil])
  · exact .inr ⟨rest.reverse, c, by rw [dropBlankEnd, h, List.reverse_cons], hc⟩

/-- A trimmed text is empty, or it has no blanks at its ends. -/
theorem trimChars_cases (cs : List Char) :
    trimChars cs = [] ∨ skipBlank (trimChars cs) = trimChars cs ∧
      ∃ front c, trimChars cs = front ++ [c] ∧ isBlank c = false := by
  rcases skipBlank_cases cs with h | ⟨c, rest, h, hc⟩
  · exact .inl (by rw [trimChars, h]; rfl)
  · have htrim : trimChars cs = c :: dropBlankEnd rest := by
      rw [trimChars, h]
      exact dropBlankEnd_append hc [] rest
    refine .inr ⟨by rw [htrim, skipBlank_cons hc], ?_⟩
    rcases dropBlankEnd_cases (skipBlank cs) with hnil | hconcat
    · exact absurd (htrim.symm.trans hnil) (List.cons_ne_nil _ _)
    · exact hconcat

theorem trimChars_trimChars (cs : List Char) : trimChars (trimChars cs) = trimChars cs := by
  rcases trimChars_cases cs with h | ⟨hskip, front, c, hconcat, hc⟩
  · rw [h]
    rfl
  · have h : trimChars (trimChars cs) = dropBlankEnd (trimChars cs) := congrArg dropBlankEnd hskip
    rw [h, hconcat, dropBlankEnd_concat hc]

theorem mem_of_mem_trimChars {c : Char} {cs : List Char} (h : c ∈ trimChars cs) : c ∈ cs := by
  have hskip : ∀ {cs : List Char}, c ∈ skipBlank cs → c ∈ cs := fun h =>
    (List.dropWhile_sublist isBlank).subset h
  exact hskip (List.mem_reverse.mp (hskip (List.mem_reverse.mp h)))

theorem nonBlank?_of_isBlankText {s : String} (h : isBlankText s = true) : nonBlank? s = none := by
  have hskip : skipBlank s.toList = [] := by
    have happend := skipBlank_append (List.all_eq_true.mp h) []
    rwa [List.append_nil] at happend
  have htrim : trim s = "" := by
    rw [trim, trimChars, hskip]
    rfl
  rw [nonBlank?, htrim]
  rfl

theorem nonBlank?_eq_some {s t : String} (h : nonBlank? s = some t) : trim s = t ∧ t ≠ "" := by
  unfold nonBlank? at h
  simp only at h
  split at h
  · exact nomatch h
  · rename_i hne
    obtain rfl := Option.some.inj h
    exact ⟨rfl, by simpa using hne⟩

theorem nonBlank?_of_trim {s : String} (h : trim s = s) (hne : s ≠ "") : nonBlank? s = some s := by
  have hempty : s.isEmpty = false := by simpa using hne
  simp [nonBlank?, h, hempty]

theorem trim_trim (s : String) : trim (trim s) = trim s := by
  rw [trim, trim, String.toList_ofList, trimChars_trimChars]

theorem nonBlank?_of_nonBlank? {s t : String} (h : nonBlank? s = some t) : nonBlank? t = some t := by
  obtain ⟨rfl, hne⟩ := nonBlank?_eq_some h
  exact nonBlank?_of_trim (trim_trim s) hne

theorem isPrefixOf?_cons (c d : Char) (start cs : List Char) :
    (c :: start).isPrefixOf? (d :: cs) = if c == d then start.isPrefixOf? cs else none := rfl

theorem eq_append_of_isPrefixOf? {start cs rest : List Char} (h : start.isPrefixOf? cs = some rest) :
    cs = start ++ rest := by
  induction start generalizing cs with
  | nil => exact Option.some.inj h
  | cons c start ih =>
    cases cs with
    | nil => cases h
    | cons d cs =>
      rw [isPrefixOf?_cons] at h
      by_cases hcd : (c == d) = true
      · rw [if_pos hcd] at h
        rw [eq_of_beq hcd, List.cons_append, ih h]
      · rw [if_neg hcd] at h
        cases h

/-- A start that does not hold a character lies before the first occurrence of it. -/
theorem isPrefixOf?_before {c : Char} {start name cs rest : List Char} (hc : c ∉ start)
    (h : start.isPrefixOf? (name ++ c :: cs) = some rest) :
    ∃ name', name = start ++ name' ∧ rest = name' ++ c :: cs := by
  rcases List.append_eq_append_iff.mp (eq_append_of_isPrefixOf? h) with
    ⟨as, hstart, hcs⟩ | ⟨bs, hname, hrest⟩
  · cases as with
    | nil => exact ⟨[], by rw [hstart, List.append_nil, List.append_nil], hcs.symm⟩
    | cons a as =>
      refine absurd ?_ hc
      rw [hstart, (List.cons.inj hcs).1]
      simp
  · exact ⟨bs, hname, hrest⟩

theorem afterWords?_indent (w : String) (ws : List String) (n : Nat) (cs : List Char) :
    afterWords? (w :: ws) (List.replicate n ' ' ++ cs) = afterWords? (w :: ws) cs := by
  rw [afterWords?, afterWords?, skipBlank_indent]

theorem toList_spaces (n : Nat) : (spaces n).toList = List.replicate n ' ' := String.toList_ofList

end Dashboard.Text

import Dashboard.Proofs.Marker.Entries
/-!
# Marker lines are recognised

A written marker line stays on its line, whatever the texts of its widget are, and the scanned line
is a marker of the same kind.
-/

namespace Dashboard.Marker

open Dashboard.Text

theorem mem_escapeChar {c d : Char} (h : c ∈ escapeChar d) :
    c ∈ ['\\', '"', 'n', 'r'] ∨ c = d ∧ d ≠ '\n' ∧ d ≠ '\r' := by
  unfold escapeChar at h
  split at h
  · exact .inl (by grind)
  · split at h
    · exact .inl (by grind)
    · split at h
      · exact .inl (by grind)
      · exact .inr ⟨List.mem_singleton.mp h, ‹_›, ‹_›⟩

/-- Beside the characters of its escapes, a written value holds those of its text, but for the two
line break characters. -/
theorem not_mem_encodeChars {c : Char} (hc : c ∉ ['\\', '"', 'n', 'r']) {cs : List Char}
    (h : c = '\n' ∨ c = '\r' ∨ c ∉ cs) : c ∉ encodeChars cs := by
  have hquote : c ≠ '"' := by
    rintro rfl
    exact hc (by decide)
  unfold encodeChars
  cases hq : needsQuotes cs with
  | true =>
    rw [if_pos rfl]
    intro hm
    simp only [List.cons_append, List.mem_cons, List.mem_append, List.not_mem_nil, or_false] at hm
    rcases hm with hm | hm | hm
    · exact hquote hm
    · obtain ⟨d, hd, hcd⟩ := List.mem_flatMap.mp hm
      rcases mem_escapeChar hcd with hescape | ⟨rfl, hfeed, hreturn⟩
      · exact hc hescape
      · rcases h with h | h | h
        · exact hfeed h
        · exact hreturn h
        · exact h hd
    · exact hquote hm
  | false =>
    rw [if_neg Bool.false_ne_true]
    intro hm
    have hblank := ((plain_of_needsQuotes hq).2 c hm).1
    rcases h with rfl | rfl | h
    · exact absurd hblank (by decide)
    · exact absurd hblank (by decide)
    · exact h hm

theorem oneLine_encodeText (s : String) : OneLine (encodeText s) :=
  .ofList (not_mem_encodeChars (by decide) (.inl rfl))

theorem isClean_encodeText {s : String} (h : '\t' ∉ s.toList) : Region.IsClean (encodeText s) := by
  rw [Region.IsClean, encodeText, String.toList_ofList]
  exact ⟨not_mem_encodeChars (by decide) (.inr (.inl rfl)), not_mem_encodeChars (by decide) (.inr (.inr h))⟩

theorem not_mem_of_isKey {c : Char} (hc : isKeyChar c = false) {s : String} (h : IsKey s.toList) :
    c ∉ s.toList := fun hm => absurd (h.2 c hm) (by simp [hc])

theorem oneLine_of_isKey {s : String} (h : IsKey s.toList) : OneLine s :=
  not_mem_of_isKey (by decide) h

theorem isClean_of_isKey {s : String} (h : IsKey s.toList) : Region.IsClean s :=
  ⟨not_mem_of_isKey (by decide) h, not_mem_of_isKey (by decide) h⟩

theorem oneLine_writtenEntries {es : Entries} (h : ∀ e ∈ es, IsKey e.1.toList) :
    OneLine (writtenEntries es) := by
  induction es with
  | nil => rw [writtenEntries_nil]; decide
  | cons e es ih =>
    rw [writtenEntries_cons]
    refine .append ?_ (ih fun e' he' => h e' (List.mem_cons_of_mem e he'))
    exact ((OneLine.append (by decide) (oneLine_of_isKey (h e List.mem_cons_self))).append
      (by decide)).append (oneLine_encodeText e.2)

theorem isClean_writtenEntries {es : Entries}
    (h : ∀ e ∈ es, IsKey e.1.toList ∧ '\t' ∉ e.2.toList) : Region.IsClean (writtenEntries es) := by
  induction es with
  | nil => rw [writtenEntries_nil]; decide
  | cons e es ih =>
    obtain ⟨hkey, htab⟩ := h e List.mem_cons_self
    rw [writtenEntries_cons]
    refine .append ?_ (ih fun e' he' => h e' (List.mem_cons_of_mem e he'))
    exact (((by decide : Region.IsClean " ").append (isClean_of_isKey hkey)).append (by decide)).append
      (isClean_encodeText htab)

theorem isKey_entryIf {key : String} (h : IsKey key.toList) (value : Option String) :
    ∀ e ∈ entryIf key value, IsKey e.1.toList := by
  intro e he
  cases value with
  | none => exact absurd he List.not_mem_nil
  | some v => exact List.mem_singleton.mp he ▸ h

theorem isKey_headEntries (w : Widget) : ∀ e ∈ headEntries w, IsKey e.1.toList := by
  have hcondition : ∀ e ∈ conditionEntries w.condition, IsKey e.1.toList := by
    unfold conditionEntries
    cases w.condition.entity? with
    | none => exact fun e he => absurd he List.not_mem_nil
    | some entity =>
      simp only [List.forall_mem_cons, List.forall_mem_append]
      exact ⟨by decide, ⟨⟨isKey_entryIf (by decide) _, isKey_entryIf (by decide) _⟩,
        isKey_entryIf (by decide) _⟩, isKey_entryIf (by decide) _⟩
  simp only [headEntries, List.forall_mem_append, List.forall_mem_cons, List.not_mem_nil,
    false_implies, implies_true, and_true]
  exact ⟨⟨⟨⟨⟨by decide, by decide, by decide, by decide, by decide, by decide⟩,
    isKey_entryIf (by decide) _⟩, isKey_entryIf (by decide) _⟩, isKey_entryIf (by decide) _⟩,
    hcondition⟩

variable {w : Widget} {props : Bag} {aliases : Aliases}

theorem oneLine_encode (hkind : IsKey w.kind.toList)
    (hprops : ∀ e ∈ propEntries props aliases, IsKey e.1.toList) :
    OneLine (encode w props aliases) := by
  rw [encode_eq]
  refine .append (by decide) (.append (oneLine_of_isKey hkind) (oneLine_writtenEntries ?_))
  exact List.forall_mem_append.mpr ⟨isKey_headEntries w, hprops⟩

theorem writtenEntries_entries (w : Widget) (props : Bag) (aliases : Aliases) :
    ∃ rest, writtenEntries (entries w props aliases) = " id:" ++ rest := by
  refine ⟨encodeText w.id ++ writtenEntries ((headEntries w).tail ++ propEntries props aliases), ?_⟩
  have hhead : entries w props aliases =
      ("id", w.id) :: ((headEntries w).tail ++ propEntries props aliases) := rfl
  rw [hhead, writtenEntries_cons, written, ← String.append_assoc]
  rfl

theorem trimChars_marker (kind rest : List Char) :
    trimChars ("// widget:".toList ++ (kind ++ (" id:".toList ++ rest))) =
      "// widget:".toList ++ (kind ++ (" id:".toList ++ dropBlankEnd rest)) := by
  change dropBlankEnd ("// widget:".toList ++ (kind ++ (" id:".toList ++ rest))) = _
  have hsplit : ∀ cs, "// widget:".toList ++ (kind ++ (" id:".toList ++ cs)) =
      ("// widget:".toList ++ (kind ++ " id".toList)) ++ ':' :: cs := by
    intro cs
    simp
  rw [hsplit, hsplit, dropBlankEnd_append (by decide)]

theorem ofLine?_marker {kind : List Char} (hkind : IsKey kind) (rest : List Char) :
    Marker.ofLine? (String.ofList ("// widget:".toList ++ (kind ++ (" id:".toList ++ rest)))) =
      some {
        kind := String.ofList kind
        fields := Table.ofList (fieldsOf (" id:".toList ++ dropBlankEnd rest)) } := by
  have htake : (kind ++ ' ' :: ("id:".toList ++ dropBlankEnd rest)).takeWhile isKeyChar = kind := by
    rw [List.takeWhile_append_of_pos hkind.2, List.takeWhile_cons_of_neg (by decide),
      List.append_nil]
  have hdrop : (kind ++ ' ' :: ("id:".toList ++ dropBlankEnd rest)).dropWhile isKeyChar =
      ' ' :: ("id:".toList ++ dropBlankEnd rest) := by
    rw [List.dropWhile_append_of_pos hkind.2, List.dropWhile_cons_of_neg (by decide)]
  rw [Marker.ofLine?, String.toList_ofList, trimChars_marker]
  change (if (List.takeWhile isKeyChar (kind ++ ' ' :: ("id:".toList ++ dropBlankEnd rest))).isEmpty
    then none else some ({
      kind := String.ofList (List.takeWhile isKeyChar (kind ++ ' ' :: ("id:".toList ++ dropBlankEnd rest)))
      fields := Table.ofList (fieldsOf
        (List.dropWhile isKeyChar (kind ++ ' ' :: ("id:".toList ++ dropBlankEnd rest)))) } : Marker)) = _
  rw [htake, hdrop, if_neg (by simpa using hkind.1)]
  rfl

theorem ofLine?_view_encode {view : String → String} (hview : Region.IsView view) (props : Bag)
    (aliases : Aliases) (hkind : IsKey w.kind.toList) :
    ∃ m, Marker.ofLine? (view (encode w props aliases)) = some m ∧ m.kind = w.kind := by
  obtain ⟨rest, hrest⟩ := writtenEntries_entries w props aliases
  have hshown : (view (encode w props aliases)).toList =
      "// widget:".toList ++ (w.kind.toList ++ (" id:".toList ++ (view rest).toList)) := by
    rw [encode_eq, hrest, hview.toList_append (by decide), hview.toList_append (isClean_of_isKey hkind),
      hview.toList_append (by decide)]
  rw [← String.ofList_toList (s := view (encode w props aliases)), hshown, ofLine?_marker hkind]
  exact ⟨_, rfl, String.ofList_toList⟩

end Dashboard.Marker

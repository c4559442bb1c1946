import Dashboard.Proofs.Layout.Portable
/-!
# Tabs in a marker

A written value keeps the tabs of its text, and the scanner makes four blanks of each of them. A tab is
a blank, so this changes nothing about the quotes around the value. What is read from a scanned marker is
therefore each text with its tabs expanded: a text comes back as it was if it has no tab, and only then.
-/

namespace Dashboard

open Text Number

namespace Region

theorem expandTabs_append (s t : String) : expandTabs (s ++ t) = expandTabs s ++ expandTabs t := by
  rw [expandTabs, String.toList_append, List.flatMap_append, String.ofList_append]
  rfl

theorem expandTabs_eq {s : String} (h : '\t' ∉ s.toList) : expandTabs s = s := by
  rw [expandTabs, flatMap_expandTab h, String.ofList_toList]

theorem tab_not_mem_expandTabs (s : String) : '\t' ∉ (expandTabs s).toList := by
  rw [expandTabs, String.toList_ofList, List.mem_flatMap]
  rintro ⟨c, -, hc⟩
  unfold expandTab at hc
  split at hc
  · exact absurd hc (by decide)
  · rename_i hne
    exact hne (List.mem_singleton.mp hc).symm

/-- The texts that the expansion of tabs leaves alone are those without tabs. -/
theorem expandTabs_eq_iff (s : String) : expandTabs s = s ↔ '\t' ∉ s.toList :=
  ⟨fun h => h ▸ tab_not_mem_expandTabs s, expandTabs_eq⟩

/-- Without carriage returns, expanding tabs is all that the scanner does. -/
theorem scanned_of_not_mem {s : String} (h : '\r' ∉ s.toList) : scanned s = expandTabs s := by
  have hlast : s.toList.getLast? ≠ some '\r' := fun he => h (List.mem_of_getLast? he)
  rw [scanned, withoutReturn, if_neg hlast, String.ofList_toList]

end Region

namespace Marker

open Region

theorem needsQuotes_expandTab (cs : List Char) :
    needsQuotes (cs.flatMap expandTab) = needsQuotes cs := by
  by_cases h : '\t' ∈ cs
  · have hblank : ∀ {c : Char} {ds : List Char}, isBlank c = true → c ∈ ds → needsQuotes ds = true := by
      intro c ds hc hmem
      rw [needsQuotes, List.any_eq_true.mpr ⟨c, hmem, by simp [hc]⟩, Bool.or_true]
    have hspace : ' ' ∈ cs.flatMap expandTab := List.mem_flatMap.mpr ⟨'\t', h, by decide⟩
    rw [hblank (by decide) hspace, hblank (by decide) h]
  · rw [flatMap_expandTab h]

theorem expandTab_escapeChar (c : Char) :
    (escapeChar c).flatMap expandTab = (expandTab c).flatMap escapeChar := by
  by_cases hc : c = '\t'
  · subst hc
    decide
  · have hescaped : '\t' ∉ escapeChar c := by
      intro hmem
      rcases mem_escapeChar hmem with h | ⟨h, -⟩
      · exact absurd h (by decide)
      · exact hc h.symm
    rw [flatMap_expandTab hescaped, expandTab, if_neg hc, List.flatMap_singleton]

/-- Tabs may be expanded before or after a value is written. -/
theorem expandTab_encodeChars (cs : List Char) :
    (encodeChars cs).flatMap expandTab = encodeChars (cs.flatMap expandTab) := by
  unfold encodeChars
  rw [needsQuotes_expandTab]
  cases needsQuotes cs with
  | false => rfl
  | true =>
    have hquote : expandTab '"' = ['"'] := by decide
    have hbody : (cs.flatMap escapeChar).flatMap expandTab = (cs.flatMap expandTab).flatMap escapeChar := by
      rw [List.flatMap_assoc, List.flatMap_assoc]
      exact List.flatMap_congr fun c _ => expandTab_escapeChar c
    rw [if_pos rfl, if_pos rfl, List.flatMap_append, List.flatMap_cons, hbody, List.flatMap_singleton,
      hquote]
    rfl

theorem expandTabs_encodeText (s : String) : expandTabs (encodeText s) = encodeText (expandTabs s) := by
  simp only [expandTabs, encodeText, String.toList_ofList, expandTab_encodeChars]

/-- An entry as the scanner shows it. -/
def expandedEntry (e : String × String) : String × String := (e.1, expandTabs e.2)

theorem expandTabs_writtenEntries {es : Entries} (h : ∀ e ∈ es, IsKey e.1.toList) :
    expandTabs (writtenEntries es) = writtenEntries (es.map expandedEntry) := by
  induction es with
  | nil => rw [List.map_nil, writtenEntries_nil]; decide
  | cons e es ih =>
    have hkey : expandTabs e.1 = e.1 := expandTabs_eq (isClean_of_isKey (h e List.mem_cons_self)).2
    rw [List.map_cons, writtenEntries_cons, writtenEntries_cons, expandTabs_append,
      ih fun e' he' => h e' (List.mem_cons_of_mem e he')]
    simp only [written, expandTabs_append, expandTabs_encodeText, hkey, expandedEntry]
    rfl

theorem return_not_mem_writtenEntries {es : Entries} (h : ∀ e ∈ es, IsKey e.1.toList) :
    '\r' ∉ (writtenEntries es).toList := by
  induction es with
  | nil => rw [writtenEntries_nil]; decide
  | cons e es ih =>
    have hkey : '\r' ∉ e.1.toList := (isClean_of_isKey (h e List.mem_cons_self)).1
    have hvalue : '\r' ∉ encodeChars e.2.toList := not_mem_encodeChars (by decide) (.inr (.inl rfl))
    have hrest := ih fun e' he' => h e' (List.mem_cons_of_mem e he')
    simp [writtenEntries_cons, written, encodeText, hkey, hvalue, hrest]

variable {w : Widget} {props : Bag} {aliases : Aliases}

/-- From the scanned marker of a widget its entries are read, each with its tabs expanded. -/
theorem ofLine?_expanded (hkind : IsKey w.kind.toList)
    (hkeys : ∀ e ∈ propEntries props aliases, IsKey e.1.toList) :
    Marker.ofLine? (Region.scanned (encode w props aliases)) =
      some ⟨w.kind, Table.ofList ((entries w props aliases).map expandedEntry)⟩ := by
  have hall : ∀ e ∈ entries w props aliases, IsKey e.1.toList :=
    List.forall_mem_append.mpr ⟨isKey_headEntries w, hkeys⟩
  have hreturn : '\r' ∉ (encode w props aliases).toList := by
    have hword : '\r' ∉ w.kind.toList := (isClean_of_isKey hkind).1
    have hrest := return_not_mem_writtenEntries hall
    simp [encode_eq, hword, hrest]
  have hexpanded : expandTabs (encode w props aliases) =
      "// widget:" ++ (w.kind ++ writtenEntries ((entries w props aliases).map expandedEntry)) := by
    rw [encode_eq, expandTabs_append, expandTabs_append, expandTabs_eq (isClean_of_isKey hkind).2,
      expandTabs_writtenEntries hall]
    rfl
  have hhead : (entries w props aliases).map expandedEntry = ("id", expandTabs w.id) ::
      ((headEntries w).tail ++ propEntries props aliases).map expandedEntry := rfl
  rw [Region.scanned_of_not_mem hreturn, hexpanded, hhead]
  refine ofLine?_written hkind (expandTabs w.id) (List.forall_mem_map.mpr fun e he => hall e ?_)
  exact List.mem_cons_of_mem _ he

end Marker

/-! ## Properties -/

/-- A value whose text, if it is one, has its tabs expanded. -/
def Json.expanded : Json → Json
  | .string s => .string (Region.expandTabs s)
  | v => v

namespace Marker

theorem Matches.textOf?_expanded {template v : Json} (h : Matches template v) :
    (textOf? v).map Region.expandTabs = textOf? v.expanded := by
  cases h with
  | string template s => rfl
  | bool template b => cases b <;> decide
  | @whole template i low high =>
    have hclean : '\t' ∉ (intText i).toList := tab_not_mem_numeral fun _ hc => isNumeralChar_intText hc
    exact congrArg some (Region.expandTabs_eq hclean)

theorem expandedEntry_entryIf (key : String) (value : Option String) :
    (entryIf key value).map expandedEntry = entryIf key (value.map Region.expandTabs) := by
  cases value <;> rfl

/-- Expanding the entries of properties is expanding the texts among the properties. -/
theorem expandedEntry_propEntries {bag : Bag} (h : ∀ e ∈ bag, ∃ template, Matches template e.2)
    (aliases : Aliases) : (propEntries bag aliases).map expandedEntry =
      propEntries (bag.map fun e => (e.1, e.2.expanded)) aliases := by
  rw [propEntries, propEntries, List.map_flatMap, List.flatMap_map]
  refine List.flatMap_congr fun e he => ?_
  obtain ⟨template, hmatch⟩ := h e he
  rw [propEntry, propEntry, expandedEntry_entryIf, hmatch.textOf?_expanded]

end Marker

end Dashboard

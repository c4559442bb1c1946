import Dashboard.Proofs.Number.Digits
import Dashboard.Proofs.Text.Blank
import Dashboard.Proofs.Text.Lines
import Dashboard.Rebuild.Drawing
import Dashboard.Rebuild.Statement
/-!
# Statements of written lines

What the lines of a drawing lambda are taken for, by the way they start. The indent of a line does
not matter, and neither does what stands between the start and the end of a call, a test or a
declaration.
-/

namespace Dashboard

open Text Number

namespace Statement

/-! ## Indents -/

theorem ofMarker?_indent (n : Nat) (cs : List Char) :
    Marker.ofLine? (String.ofList (List.replicate n ' ' ++ cs)) =
      Marker.ofLine? (String.ofList cs) := by
  simp only [Marker.ofLine?, String.toList_ofList, trimChars_indent]

/-- The digits of the page that a line selects, which may be too many for a number of a page. -/
def pageDigits? (cs : List Char) : Option (List Char) := do
  let rest ← afterElse cs
  let rest ← afterWords? ["if", "("] rest
  let rest ← afterPageNumber? rest
  let rest ← afterWords? ["=="] rest
  let (digits, rest) ← decimals? rest
  let rest ← afterWords? [")"] rest
  if endsTest rest then some digits else none

theorem pageTest?_eq (cs : List Char) : pageTest? cs = (pageDigits? cs).bind readNat64? := by
  have hends : ∀ (ends : Bool) (digits : List Char), (if ends then some digits else none).bind readNat64? =
      if ends then readNat64? digits else none := by
    intro ends digits
    cases ends <;> rfl
  simp only [pageTest?, pageDigits?, Option.bind_eq_bind, Option.bind_assoc, hends]

theorem pageDigits?_indent (n : Nat) (cs : List Char) :
    pageDigits? (List.replicate n ' ' ++ cs) = pageDigits? cs := by
  unfold pageDigits? afterElse
  rw [afterWords?_indent]
  cases afterWords? ["\x7d", "else"] cs with
  | some rest => rfl
  | none =>
    change (afterWords? ["if", "("] (List.replicate n ' ' ++ cs)).bind _ =
      (afterWords? ["if", "("] cs).bind _
    rw [afterWords?_indent]

theorem pageTest?_indent (n : Nat) (cs : List Char) :
    pageTest? (List.replicate n ' ' ++ cs) = pageTest? cs := by
  rw [pageTest?_eq, pageTest?_eq, pageDigits?_indent]

theorem intervalCase?_indent (n : Nat) (cs : List Char) :
    intervalCase? (List.replicate n ' ' ++ cs) = intervalCase? cs := by
  unfold intervalCase?
  rw [afterWords?_indent]

theorem pageName?_indent (n : Nat) (cs : List Char) :
    pageName? (List.replicate n ' ' ++ cs) = pageName? cs := by
  unfold pageName?
  rw [afterWords?_indent]

theorem isBody_indent (n : Nat) (cs : List Char) :
    isBody (List.replicate n ' ' ++ cs) = isBody cs := by
  simp only [isBody, skipBlank_indent]

theorem ofLine_indent (n : Nat) (cs : List Char) :
    ofLine (String.ofList (List.replicate n ' ' ++ cs)) = ofLine (String.ofList cs) := by
  simp only [ofLine, String.toList_ofList, ofMarker?_indent, pageTest?_indent,
    intervalCase?_indent, pageName?_indent, isBody_indent]

theorem recover?_indent (n : Nat) (cs : List Char) (ordinal : Nat) :
    Widget.recover? (String.ofList (List.replicate n ' ' ++ cs)) ordinal =
      Widget.recover? (String.ofList cs) ordinal := by
  have hcall : Drawing.call? (List.replicate n ' ' ++ cs) = Drawing.call? cs := by
    unfold Drawing.call?
    rw [afterWords?_indent]
  simp only [Widget.recover?, Drawing.ofLine?, String.toList_ofList, hcall]

/-! ## Lines that are no marker -/

theorem ofMarker?_eq_none {c : Char} (hb : isBlank c = false) (hc : c ≠ '/') (cs : List Char) :
    Marker.ofLine? (String.ofList (c :: cs)) = none := by
  have hne : ('/' == c) = false := by simpa using Ne.symm hc
  have hstart : ['/', '/'].isPrefixOf? (c :: dropBlankEnd cs) = none := by
    rw [isPrefixOf?_cons, hne, if_neg Bool.false_ne_true]
  rw [Marker.ofLine?, String.toList_ofList, trimChars_cons hb, hstart]
  exact Option.bind_none _

/-- What a line without a marker says: the first thing that reads it. -/
def ofUnmarked (cs : List Char) : Statement :=
  match pageTest? cs with
  | some index => .pageTest index
  | none =>
    match intervalCase? cs with
    | some (page, seconds) => ofInterval page seconds
    | none =>
      match pageName? cs with
      | some name => .pageName name
      | none => .other (isBody cs)

theorem ofLine_cons {c : Char} (hb : isBlank c = false) (hc : c ≠ '/') (cs : List Char) :
    ofLine (String.ofList (c :: cs)) = ofUnmarked (c :: cs) := by
  rw [ofLine, ofMarker?_eq_none hb hc, String.toList_ofList]
  rfl

theorem recover?_eq_none {cs : List Char} (h : afterWords? ["it."] cs = none) (ordinal : Nat) :
    Widget.recover? (String.ofList cs) ordinal = none := by
  simp [Widget.recover?, Drawing.ofLine?, Drawing.call?, h]

/-- A line that switches nothing, and that draws nothing by itself unless it belongs to the drawing
code of a widget. -/
structure IsPlain (inBody : Bool) (cs : List Char) : Prop where
  statement : ofLine (String.ofList cs) = .other inBody
  undrawn : inBody = false → ∀ ordinal, Widget.recover? (String.ofList cs) ordinal = none

theorem IsPlain.indent {inBody : Bool} {cs : List Char} (h : IsPlain inBody cs) (n : Nat) :
    IsPlain inBody (List.replicate n ' ' ++ cs) :=
  ⟨by rw [ofLine_indent, h.statement], fun hb ordinal => by rw [recover?_indent, h.undrawn hb]⟩

theorem isPlain_blank : IsPlain false [] := ⟨rfl, fun _ _ => rfl⟩

theorem isPlain_declaration (cs : List Char) : IsPlain false ("int ".toList ++ cs) :=
  ⟨ofLine_cons (by decide) (by decide) _, fun _ => recover?_eq_none rfl⟩

theorem isPlain_constant (cs : List Char) : IsPlain false ("const auto ".toList ++ cs) :=
  ⟨ofLine_cons (by decide) (by decide) _, fun _ => recover?_eq_none rfl⟩

theorem isPlain_switch (cs : List Char) : IsPlain false ("switch (".toList ++ cs) :=
  ⟨ofLine_cons (by decide) (by decide) _, fun _ => recover?_eq_none rfl⟩

theorem isPlain_assignment (cs : List Char) : IsPlain false ("id(page_refresh".toList ++ cs) :=
  ⟨ofLine_cons (by decide) (by decide) _, fun _ => recover?_eq_none rfl⟩

theorem isPlain_open : IsPlain true ['{'] :=
  ⟨ofLine_cons (by decide) (by decide) _, fun h => nomatch h⟩

theorem isPlain_close : IsPlain true ['}'] :=
  ⟨ofLine_cons (by decide) (by decide) _, fun h => nomatch h⟩

/-- A closing brace draws nothing, whether it belongs to a widget or to a page. -/
theorem recover?_close (ordinal : Nat) : Widget.recover? (String.ofList ['}']) ordinal = none :=
  recover?_eq_none rfl ordinal

theorem isPlain_loop (cs : List Char) : IsPlain true ("for (".toList ++ cs) :=
  ⟨ofLine_cons (by decide) (by decide) _, fun h => nomatch h⟩

theorem isPlain_local (cs : List Char) : IsPlain true ("auto now".toList ++ ' ' :: cs) :=
  ⟨ofLine_cons (by decide) (by decide) _, fun h => nomatch h⟩

theorem isPlain_call {name : List Char} (hname : name ≠ []) (hword : ∀ c ∈ name, isWord c = true)
    (cs : List Char) : IsPlain true ("it.".toList ++ (name ++ '(' :: cs)) := by
  refine ⟨?_, fun h => nomatch h⟩
  have hcall : isCall ("it.".toList ++ (name ++ '(' :: cs)) = true := by
    have htake : (name ++ '(' :: cs).takeWhile isWord = name := by
      rw [List.takeWhile_append_of_pos hword, List.takeWhile_cons_of_neg (by decide),
        List.append_nil]
    have hdrop : (name ++ '(' :: cs).dropWhile isWord = '(' :: cs := by
      rw [List.dropWhile_append_of_pos hword, List.dropWhile_cons_of_neg (by decide)]
    change (!((name ++ '(' :: cs).takeWhile isWord).isEmpty &&
      (afterWords? ["("] ((name ++ '(' :: cs).dropWhile isWord)).isSome) = true
    rw [htake, hdrop]
    cases name with
    | nil => exact absurd rfl hname
    | cons c name => rfl
  have hbody : isBody ("it.".toList ++ (name ++ '(' :: cs)) = true := by
    have h : isBody ("it.".toList ++ (name ++ '(' :: cs)) =
        (isCall ("it.".toList ++ (name ++ '(' :: cs)) || _ || _ || _ || _ || _) := rfl
    simp only [h, hcall, Bool.true_or]
  refine (ofLine_cons (c := 'i') (by decide) (by decide) ('t' :: '.' :: (name ++ '(' :: cs))).trans ?_
  exact congrArg Statement.other hbody

/-! ## Guards

The state that a guard reads may be called like the current page. Even then its test is none for a
page, because a point follows the name. -/

theorem afterPageNumber?_state {name : List Char} (hblank : ∀ c ∈ name, isBlank c = false)
    (hclose : ')' ∉ name) (cs : List Char) :
    (afterPageNumber? ("id(".toList ++ (name ++ ')' :: '.' :: cs))).bind
      (afterWords? ["=="]) = none := by
  have hskip : ∀ rest : List Char, (∀ c ∈ rest, isBlank c = false) →
      skipBlank (rest ++ ')' :: '.' :: cs) = rest ++ ')' :: '.' :: cs := by
    intro rest hrest
    cases rest with
    | nil => rfl
    | cons c rest => exact skipBlank_cons (hrest c List.mem_cons_self) _
  have hfirst : afterPageNumber? ("id(".toList ++ (name ++ ')' :: '.' :: cs)) =
      ("display_page".toList.isPrefixOf? (skipBlank (name ++ ')' :: '.' :: cs))).bind
        (afterWords? [")"]) := by
    change Option.orElse (("display_page".toList.isPrefixOf?
      (skipBlank (name ++ ')' :: '.' :: cs))).bind (afterWords? [")"])) (fun _ => none) = _
    cases ("display_page".toList.isPrefixOf? (skipBlank (name ++ ')' :: '.' :: cs))).bind
      (afterWords? [")"]) <;> rfl
  rw [hfirst, hskip name hblank]
  cases hprefix : "display_page".toList.isPrefixOf? (name ++ ')' :: '.' :: cs) with
  | none => rfl
  | some rest =>
    obtain ⟨name', rfl, rfl⟩ := isPrefixOf?_before (by decide) hprefix
    have hblank' : ∀ c ∈ name', isBlank c = false := fun c hc =>
      hblank c (List.mem_append_right _ hc)
    change ((")".toList.isPrefixOf? (skipBlank (name' ++ ')' :: '.' :: cs))).bind
      (afterWords? [])).bind (afterWords? ["=="]) = none
    rw [hskip name' hblank']
    cases name' with
    | nil => rfl
    | cons c name' =>
      have hc : c ≠ ')' := fun he => hclose (by simp [he])
      have hne : (')' == c) = false := by simpa using Ne.symm hc
      simp [isPrefixOf?_cons, hne]

theorem pageDigits?_state {name : List Char} (hblank : ∀ c ∈ name, isBlank c = false)
    (hclose : ')' ∉ name) (cs : List Char) :
    pageDigits? ("if (id(".toList ++ (name ++ ')' :: '.' :: cs)) = none := by
  have h := afterPageNumber?_state hblank hclose cs
  change (afterPageNumber? ("id(".toList ++ (name ++ ')' :: '.' :: cs))).bind _ = none
  cases hpage : afterPageNumber? ("id(".toList ++ (name ++ ')' :: '.' :: cs)) with
  | none => rfl
  | some rest =>
    rw [hpage] at h
    change afterWords? ["=="] rest = none at h
    simp [h]

theorem isPlain_guard {name : List Char} (hblank : ∀ c ∈ name, isBlank c = false)
    (hclose : ')' ∉ name) (cs : List Char) :
    IsPlain true ("if (id(".toList ++ (name ++ ')' :: '.' :: cs)) := by
  refine ⟨?_, fun h => nomatch h⟩
  refine (ofLine_cons (c := 'i') (by decide) (by decide)
    ('f' :: ' ' :: '(' :: 'i' :: 'd' :: '(' :: (name ++ ')' :: '.' :: cs))).trans ?_
  have h := pageDigits?_state hblank hclose cs
  change pageDigits? ('i' :: 'f' :: ' ' :: '(' :: 'i' :: 'd' :: '(' :: (name ++ ')' :: '.' :: cs)) =
    none at h
  rw [ofUnmarked, pageTest?_eq, h]
  rfl

theorem isPlain_negated (cs : List Char) : IsPlain true ("if (!".toList ++ cs) :=
  ⟨ofLine_cons (by decide) (by decide) _, fun h => nomatch h⟩

/-! ## Pages -/

theorem ofLine_pageTest {index : Nat} (h : index < twoTo 64) :
    ofLine (String.ofList ("if (page == ".toList ++ (digitsOf index ++ ") \x7b".toList))) =
      .pageTest index := by
  have htest : pageTest? ("if (page == ".toList ++ (digitsOf index ++ ") \x7b".toList)) = some index := by
    change (decimals? (' ' :: (digitsOf index ++ ')' :: ' ' :: '{' :: []))).bind _ = some index
    rw [decimals?_blank_digitsOf index (by decide)]
    change readNat64? (digitsOf index) = some index
    exact readNat?_digitsOf h
  refine (ofLine_cons (c := 'i') (by decide) (by decide)
    ('f' :: ' ' :: '(' :: 'p' :: 'a' :: 'g' :: 'e' :: ' ' :: '=' :: '=' :: ' ' ::
      (digitsOf index ++ ") \x7b".toList))).trans ?_
  change (match pageTest? ("if (page == ".toList ++ (digitsOf index ++ ") \x7b".toList)) with
    | some index => pageTest index
    | none => _) = _
  rw [htest]

theorem ofLine_interval {index : Nat} (h : index < twoTo 64) (seconds : UInt32) :
    ofLine (String.ofList ("case ".toList ++ (digitsOf index ++ (": interval = ".toList ++
      (digitsOf seconds.toNat ++ "; break;".toList))))) = .interval index seconds := by
  have hcase : intervalCase? ("case ".toList ++ (digitsOf index ++ (": interval = ".toList ++
      (digitsOf seconds.toNat ++ "; break;".toList)))) =
      some (digitsOf index, digitsOf seconds.toNat) := by
    have hskip : skipBlank (digitsOf index ++ (": interval = ".toList ++
        (digitsOf seconds.toNat ++ "; break;".toList))) = digitsOf index ++ (": interval = ".toList ++
        (digitsOf seconds.toNat ++ "; break;".toList)) := skipBlank_digitsOf index _
    change (decimals? (skipBlank (digitsOf index ++ (": interval = ".toList ++
      (digitsOf seconds.toNat ++ "; break;".toList))))).bind _ = _
    rw [hskip]
    change (decimals? (digitsOf index ++ ':' :: _)).bind _ = _
    rw [decimals?_digitsOf index (by decide)]
    change (decimals? (' ' :: (digitsOf seconds.toNat ++ ';' :: " break;".toList))).bind _ = _
    rw [decimals?_blank_digitsOf seconds.toNat (by decide)]
    rfl
  refine (ofLine_cons (c := 'c') (by decide) (by decide) ('a' :: 's' :: 'e' :: ' ' ::
    (digitsOf index ++ (": interval = ".toList ++
      (digitsOf seconds.toNat ++ "; break;".toList))))).trans ?_
  change (match (none : Option Nat) with
    | some index => pageTest index
    | none => match intervalCase? ("case ".toList ++ (digitsOf index ++ (": interval = ".toList ++
        (digitsOf seconds.toNat ++ "; break;".toList)))) with
      | some (page, seconds) => ofInterval page seconds
      | none => _) = _
  rw [hcase]
  have hseconds : seconds.toNat < twoTo 32 := seconds.toNat_lt
  change ofInterval (digitsOf index) (digitsOf seconds.toNat) = _
  rw [ofInterval, readNat64?, readNat?_digitsOf h, readNat32?, readNat?_digitsOf hseconds]
  simp

theorem pageName?_quoted (body : List Char) :
    pageName? ("// page:name \"".toList ++ (body ++ ['"'])) =
      some (String.ofList (readLiteralBody body)) := by
  change (beforeLast? '"' (dropBlankEnd (body ++ ['"']))).bind _ = _
  rw [dropBlankEnd_concat (by decide)]
  simp [beforeLast?]

theorem ofLine_pageName (body : List Char) :
    ofLine (String.ofList ("// page:name \"".toList ++ (body ++ ['"']))) =
      .pageName (String.ofList (readLiteralBody body)) := by
  have hmarker : Marker.ofLine? (String.ofList ("// page:name \"".toList ++ (body ++ ['"']))) =
      none := by
    have htrim : trimChars ("// page:name \"".toList ++ (body ++ ['"'])) =
        "// page:name \"".toList ++ (body ++ ['"']) := by
      rw [← List.append_assoc]
      change dropBlankEnd (("// page:name \"".toList ++ body) ++ ['"']) = _
      exact dropBlankEnd_concat (by decide) _
    rw [Marker.ofLine?, String.toList_ofList, htrim]
    rfl
  simp only [ofLine, hmarker, String.toList_ofList]
  change (match pageName? ("// page:name \"".toList ++ (body ++ ['"'])) with
    | some name => pageName name
    | none => _) = _
  rw [pageName?_quoted]

end Statement

end Dashboard

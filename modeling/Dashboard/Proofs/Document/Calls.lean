import Dashboard.Proofs.Document.Referred
/-!
# Calls of drawing code

The calls of drawing code with their arguments, read off its lines. A comma between two arguments has a blank
after it, and one in a string literal separates nothing. Markers, guards, loops and braces are no calls. Reading
a written call gives back its name and its arguments as they were written.
-/

namespace Dashboard

open Text Number Statement

/-- A drawing call: its name, and its arguments as they are written. -/
structure Call where
  name : String
  arguments : List String
deriving DecidableEq, Repr

namespace Call

/-- Puts a character before the first of several arguments. -/
def push (c : Char) : List (List Char) → List (List Char)
  | a :: as => (c :: a) :: as
  | [] => [[c]]

/-- The arguments of a call. The first argument says whether a string literal is open. -/
def split : Bool → List Char → List (List Char)
  | _, [] => [[]]
  | false, ',' :: ' ' :: cs => [] :: split false cs
  | true, '\\' :: c :: cs => push '\\' (push c (split true cs))
  | quoted, c :: cs => push c (split (quoted ^^ c == '"') cs)

/-- The call that a line of drawing code makes. -/
def ofLine? (line : String) : Option Call := do
  let rest ← "it.".toList.isPrefixOf? (skipBlank line.toList)
  let inside ← ['('].isPrefixOf? (rest.dropWhile isNameChar)
  let arguments ← (beforeLast? ';' inside).bind (beforeLast? ')')
  return ⟨String.ofList (rest.takeWhile isNameChar), (split false arguments).map String.ofList⟩

def ofLines (ls : List String) : List Call := ls.filterMap ofLine?

example : ofLine? "      it.printf(4, -2, id(a), red, TextAlign::TOP, \"a, \\\"%s);\", id(x).state);" =
    some ⟨"printf", ["4", "-2", "id(a)", "red", "TextAlign::TOP", "\"a, \\\"%s);\"", "id(x).state"]⟩ := by
  decide +kernel

/-! ## Arguments -/

variable {a b cs rest : List Char}

def prepend (cs : List Char) (as : List (List Char)) : List (List Char) := cs.foldr push as

theorem prepend_append (a b : List Char) (as : List (List Char)) :
    prepend (a ++ b) as = prepend a (prepend b as) := List.foldr_append

@[simp] theorem prepend_cons (cs a : List Char) (as : List (List Char)) :
    prepend cs (a :: as) = (cs ++ a) :: as := by
  induction cs with
  | nil => rfl
  | cons c cs ih => exact congrArg (push c) ih

/-- A text in which no argument ends and after which no literal is open. -/
def IsWhole (cs : List Char) : Prop := ∀ rest, split false (cs ++ rest) = prepend cs (split false rest)

theorem IsWhole.append (ha : IsWhole a) (hb : IsWhole b) : IsWhole (a ++ b) := by
  intro rest
  rw [List.append_assoc, ha, hb, prepend_append]

theorem isWhole_plain (h : ∀ c ∈ cs, c ≠ '"' ∧ c ≠ ',') : IsWhole cs := by
  intro rest
  induction cs with
  | nil => rfl
  | cons c cs ih =>
    obtain ⟨hc, hcs⟩ := List.forall_mem_cons.mp h
    have hquote : (c == '"') = false := beq_eq_false_iff_ne.mpr hc.1
    rw [List.cons_append, split, hquote, Bool.false_xor, ih hcs]
    · rfl
    · simp [hc.2]
    · simp

/-- The same for a text that is spelled out. -/
theorem isWhole_all (h : (cs.all fun c => c != '"' && c != ',') = true) : IsWhole cs :=
  isWhole_plain fun c hc => by simpa using List.all_eq_true.mp h c hc

theorem split_literalChar (c : Char) (rest : List Char) :
    split true (literalChar c ++ rest) = prepend (literalChar c) (split true rest) := by
  unfold literalChar
  split
  · rfl
  · split
    · rfl
    · split
      · rfl
      · split
        · rfl
        · rename_i hquote hslash _ _
          have hopen : (true ^^ c == '"') = true := by simpa using hquote
          rw [List.singleton_append, Call.split, hopen]
          · rfl
          · simp
          · simp [hslash]

theorem split_literalBody (cs rest : List Char) :
    split true (literalBody cs ++ '"' :: rest) = prepend (literalBody cs ++ ['"']) (split false rest) := by
  induction cs with
  | nil => rfl
  | cons c cs ih =>
    rw [literalBody, List.flatMap_cons, List.append_assoc, List.append_assoc, prepend_append, split_literalChar,
      ← literalBody, ih]

theorem isWhole_literal (s : String) : IsWhole (literal s).toList := by
  intro rest
  have hbody := split_literalBody s.toList rest
  simp only [literal, String.toList_ofList, List.cons_append, List.append_assoc, List.nil_append]
  rw [split]
  · simp only [prepend, List.foldr_cons] at hbody ⊢
    exact congrArg (push '"') hbody
  · simp
  · simp

/-- Arguments with a comma and a blank between them are told apart. -/
theorem split_joined {as : List String} (hne : as ≠ []) (h : ∀ a ∈ as, IsWhole a.toList) :
    (split false (joined ", " as).toList).map String.ofList = as := by
  induction as with
  | nil => exact absurd rfl hne
  | cons a as ih =>
    obtain ⟨ha, has⟩ := List.forall_mem_cons.mp h
    cases as with
    | nil =>
      have hlast := ha []
      rw [List.append_nil] at hlast
      simp [joined, hlast, split]
    | cons b as =>
      have hmore : (joined ", " (a :: b :: as)).toList =
          a.toList ++ ',' :: ' ' :: (joined ", " (b :: as)).toList := by
        simp [joined, String.intercalate_cons_cons]
      rw [hmore, ha, split, prepend_cons, List.append_nil, List.map_cons, String.ofList_toList,
        ih (List.cons_ne_nil b as) has]

theorem isWhole_pixelText (p : Pixel) : IsWhole (Kind.pixelText p).toList := by
  refine isWhole_plain fun c hc => ?_
  have hnumeral : IsNumeralChar c := isNumeralChar_intText hc
  constructor
  all_goals
    rintro rfl
    exact absurd hnumeral (by simp [IsNumeralChar])

theorem isWhole_of_isName {s : String} (h : IsName s) : IsWhole s.toList := by
  refine isWhole_plain fun c hc => ?_
  have hname := h.2 c hc
  constructor
  all_goals
    rintro rfl
    exact absurd hname (by decide)

theorem isWhole_componentRef {id : String} (h : IsName id) : IsWhole (Kind.componentRef id).toList := by
  have hopen : IsWhole "id(".toList := isWhole_all (by decide)
  have hclose : IsWhole ")".toList := isWhole_all (by decide)
  simpa [Kind.componentRef] using (hopen.append (isWhole_of_isName h)).append hclose

theorem isWhole_textAlign (a : Alignment) : IsWhole a.textAlign.toList := by
  refine isWhole_all ?_
  rcases a with ⟨_ | _ | _, _ | _ | _⟩ <;> decide

theorem isWhole_stateArgument {read : EntityRead} (h : IsName read.id) :
    IsWhole (Kind.stateArgument read).toList := by
  have htext : IsWhole ".state.c_str()".toList := isWhole_all (by decide)
  have hnumber : IsWhole ".state".toList := isWhole_all (by decide)
  unfold Kind.stateArgument
  rw [String.toList_append]
  refine (isWhole_componentRef h).append ?_
  split
  · exact htext
  · exact hnumber

/-! ## Lines -/

theorem ofLine?_call {name : String} (hname : IsWord name.toList) {arguments : List String}
    (hne : arguments ≠ []) (h : ∀ a ∈ arguments, IsWhole a.toList) :
    ofLine? (Kind.call name arguments) = some ⟨name, arguments⟩ := by
  have hchars : (Kind.call name arguments).toList =
      'i' :: 't' :: '.' :: (name.toList ++ '(' :: ((joined ", " arguments).toList ++ [')', ';'])) := by
    simp [Kind.call]
  have hskip : skipBlank (Kind.call name arguments).toList = (Kind.call name arguments).toList := by
    rw [hchars]
    exact skipBlank_cons (by decide) _
  have hstop : isNameChar '(' = false := by decide
  have htake : ∀ cs, (name.toList ++ '(' :: cs).takeWhile isNameChar = name.toList := fun cs => by
    rw [List.takeWhile_append_of_pos hname, List.takeWhile_cons_of_neg (by simp [hstop]), List.append_nil]
  have hdrop : ∀ cs, (name.toList ++ '(' :: cs).dropWhile isNameChar = '(' :: cs := fun cs => by
    rw [List.dropWhile_append_of_pos hname, List.dropWhile_cons_of_neg (by simp [hstop])]
  have hempty : ∀ cs : List Char, [].isPrefixOf? cs = some cs := fun _ => rfl
  rw [ofLine?, hskip, hchars]
  simp [isPrefixOf?_cons, hempty, htake, hdrop, beforeLast?, split_joined hne h]

theorem ofLine?_spaces (n : Nat) (s : String) : ofLine? (spaces n ++ s) = ofLine? s := by
  have hskip : skipBlank (spaces n ++ s).toList = skipBlank s.toList := by
    rw [String.toList_append, spaces, String.toList_ofList, skipBlank_indent]
  simp only [ofLine?, hskip]

/-- A line that begins with something else than the object that draws. -/
theorem ofLine?_eq_none {start : String} {c : Char} {cs : List Char} (hstart : start.toList = c :: cs)
    (hc : isBlank c = false) (h : ∀ rest, "it.".toList.isPrefixOf? (c :: cs ++ rest) = none) (rest : String) :
    ofLine? (start ++ rest) = none := by
  have hskip : skipBlank (start ++ rest).toList = c :: cs ++ rest.toList := by
    rw [String.toList_append, hstart]
    exact skipBlank_cons hc _
  rw [ofLine?, hskip, h]
  rfl

theorem ofLines_append (ls ms : List String) : ofLines (ls ++ ms) = ofLines ls ++ ofLines ms :=
  List.filterMap_append

theorem ofLines_singleton (l : String) : ofLines [l] = (ofLine? l).toList := by
  cases h : ofLine? l <;> simp [ofLines, h]

end Call

/-! ## Blocks -/

namespace Block

open Call

/-- The calls that are made in a block so far. -/
def calls (b : Block) : List Call := ofLines b.lines

@[simp] theorem calls_start (w : Widget) (props : Bag) (aliases : Aliases) :
    (start w props aliases).calls = [] := by
  have hmarker : ofLine? (spaces pageColumn ++ Marker.encode w props aliases) = none := by
    rw [ofLine?_spaces]
    unfold Marker.encode
    simp only [String.append_assoc]
    exact ofLine?_eq_none rfl (by decide) (fun _ => rfl) _
  have hguard : ∀ g, ofLine? (spaces pageColumn ++ "if (" ++ g ++ ") \x7b") = none := by
    intro g
    rw [String.append_assoc, String.append_assoc, ofLine?_spaces]
    exact ofLine?_eq_none rfl (by decide) (fun _ => rfl) _
  unfold start calls ofLines
  split
  · simp [hmarker, hguard]
  · simp [hmarker]

@[simp] theorem calls_line (b : Block) (s : String) : (b.line s).calls = b.calls ++ (ofLine? s).toList := by
  rw [calls, line, ofLines_append, ofLines_singleton, ofLine?_spaces, calls]

@[simp] theorem calls_loop (b : Block) (count : Nat) (s : String) :
    (b.loop count s).calls = b.calls ++ (ofLine? s).toList := by
  have hloop : ofLine? ("for (int i = 0; i < " ++ natText count ++ "; i++) \x7b") = none := by
    rw [String.append_assoc]
    exact ofLine?_eq_none rfl (by decide) (fun _ => rfl) _
  have hindent : ofLine? ("  " ++ s) = ofLine? s := ofLine?_spaces 2 s
  have hclose : ofLine? "\x7d" = none := by decide
  simp [loop, hloop, hindent, hclose]

@[simp] theorem calls_openScope (b : Block) : b.openScope.calls = b.calls := by
  have hopen : ofLine? "\x7b" = none := by decide
  have hline : b.openScope.calls = (b.line "\x7b").calls := rfl
  rw [hline, calls_line, hopen, Option.toList_none, List.append_nil]

@[simp] theorem calls_closeScope (b : Block) : b.closeScope.calls = b.calls := by
  have hclose : ofLine? "\x7d" = none := by decide
  rw [closeScope, calls_line, hclose, Option.toList_none, List.append_nil]
  rfl

@[simp] theorem ofLines_finish (b : Block) : ofLines b.finish = b.calls := by
  have hclose : ofLine? (spaces pageColumn ++ "\x7d") = none := by decide
  unfold finish
  split
  · rw [ofLines_append, ofLines_singleton, hclose, Option.toList_none, List.append_nil, calls]
  · rfl

end Block

end Dashboard

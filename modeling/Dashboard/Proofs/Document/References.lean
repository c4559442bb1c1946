import Dashboard.Kind.Basic
/-!
# References of drawing code

Which components and colors a statement of the drawing code refers to, read off its text. Comments and the
contents of string literals refer to nothing. A component is written `id(name)`: with its state it is a
sensor that is read, in a call that draws a graph it is the graph, and everywhere else it is a font. A name
that starts with `color_` is the constant of a color. The statement that asks for the time refers to the
source of the time, which is an option and no part of the document.
-/

namespace Dashboard

open Text

inductive Reference where
  | font (id : String)
  | graph (id : String)
  | sensor (id : String)
  | color (name : String)
deriving DecidableEq, Repr

namespace Statement

/-- Code is made of names and single symbols. -/
inductive Token where
  | name (cs : List Char)
  | symbol (c : Char)
deriving DecidableEq, Repr

def isNameChar (c : Char) : Bool := c.isAlphanum || c == '_'

/-- Code without the contents of its string literals. The first argument says whether one is open. -/
def codeFrom : Bool → List Char → List Char
  | _, [] => []
  | false, '"' :: cs => '"' :: codeFrom true cs
  | false, c :: cs => c :: codeFrom false cs
  | true, '\\' :: _ :: cs => codeFrom true cs
  | true, '"' :: cs => '"' :: codeFrom false cs
  | true, _ :: cs => codeFrom true cs

/-- Puts a character before the name that the tokens begin with, or before the tokens as a name. -/
def push (c : Char) : List Token → List Token
  | .name cs :: ts => .name (c :: cs) :: ts
  | ts => .name [c] :: ts

def tokens : List Char → List Token
  | [] => []
  | c :: cs => if isNameChar c then push c (tokens cs) else .symbol c :: tokens cs

def visible (ts : List Token) : List Token := ts.filter (· ≠ .symbol ' ')

/-- The tokens of a text, without blanks and the contents of string literals. -/
def lex (cs : List Char) : List Token := visible (tokens (codeFrom false cs))

/-- How far a component is read: not at all, up to the word `id`, its parenthesis, the name, the closing
parenthesis or the point after it. -/
inductive Reading where
  | outside
  | keyword
  | opened
  | named (name : List Char)
  | closed (name : List Char)
  | member (name : List Char)

/-- The color that a name stands for. -/
def colorOf (name : List Char) : List Reference :=
  if "color_".toList.isPrefixOf name then [.color (String.ofList name)] else []

/-- A token that goes on with no component. -/
def begin : Token → Reading × List Reference
  | .name cs => if cs = ['i', 'd'] then (.keyword, []) else (.outside, colorOf cs)
  | .symbol _ => (.outside, [])

/-- What a token adds, given what a component without its state is. -/
def step (component : String → Reference) : Reading → Token → Reading × List Reference
  | .keyword, .symbol '(' => (.opened, [])
  | .opened, .name cs => (.named cs, [])
  | .named cs, .symbol ')' => (.closed cs, [])
  | .named cs, t => ((begin t).1, colorOf cs ++ (begin t).2)
  | .closed cs, .symbol '.' => (.member cs, [])
  | .closed cs, t => ((begin t).1, component (String.ofList cs) :: (begin t).2)
  | .member cs, .name field =>
    (.outside, [if field = "state".toList then .sensor (String.ofList cs) else component (String.ofList cs)])
  | .member cs, t => ((begin t).1, component (String.ofList cs) :: (begin t).2)
  | _, t => begin t

def refer (component : String → Reference) : Reading → List Token → List Reference
  | .named cs, [] => colorOf cs
  | .closed cs, [] | .member cs, [] => [component (String.ofList cs)]
  | _, [] => []
  | r, t :: ts => (step component r t).2 ++ refer component (step component r t).1 ts

/-- What a component without its state is in a statement. -/
def componentOf (cs : List Char) : String → Reference :=
  if "it.graph(".toList.isPrefixOf cs then .graph else .font

/-- A comment, or the statement that asks for the time. -/
def isApart (cs : List Char) : Bool := "//".toList.isPrefixOf cs || "auto now = ".toList.isPrefixOf cs

/-- The references of a line of drawing code. -/
def references (line : String) : List Reference :=
  let cs := skipBlank line.toList
  if isApart cs then [] else refer (componentOf cs) .outside (lex cs)

example : references "        it.printf(0, -4, id(font_a_400_20), color_black, TextAlign::CENTER, \"id(x) %s\", id(weather_home).state.c_str());" =
    [.font "font_a_400_20", .color "color_black", .sensor "weather_home"] := by decide +kernel

example : references "  if (!id(binary_sensor_door).state) \x7b" = [.sensor "binary_sensor_door"] := by
  decide +kernel

/-! ## Tokens of parts -/

theorem tokens_append_symbol {c : Char} (hc : isNameChar c = false) (cs rest : List Char) :
    tokens (cs ++ c :: rest) = tokens cs ++ .symbol c :: tokens rest := by
  induction cs with
  | nil => simp [tokens, hc]
  | cons d cs ih =>
    simp only [List.cons_append, tokens, ih]
    split
    · rcases tokens cs with _ | ⟨t, ts⟩
      · rfl
      · cases t <;> rfl
    · rfl

/-- A text of letters, digits and underscores. -/
def IsWord (cs : List Char) : Prop := ∀ c ∈ cs, isNameChar c = true

instance (cs : List Char) : Decidable (IsWord cs) := List.decidableBAll _ cs

theorem tokens_name {cs : List Char} (hne : cs ≠ []) (h : IsWord cs) : tokens cs = [.name cs] := by
  induction cs with
  | nil => exact absurd rfl hne
  | cons c cs ih =>
    rw [tokens, if_pos (h c List.mem_cons_self)]
    rcases cs with _ | ⟨d, cs⟩
    · rfl
    · rw [ih (List.cons_ne_nil d cs) fun e he => h e (List.mem_cons_of_mem c he), push]

theorem codeFrom_append {cs : List Char} (h : '"' ∉ cs) (rest : List Char) :
    codeFrom false (cs ++ rest) = cs ++ codeFrom false rest := by
  induction cs with
  | nil => rfl
  | cons c cs ih =>
    obtain ⟨hc, hcs⟩ := not_or.mp fun hmem => h (List.mem_cons.mpr hmem)
    rw [List.cons_append, codeFrom, ih hcs, List.cons_append]
    exact fun he => hc he.symm

theorem codeFrom_literalBody (cs rest : List Char) :
    codeFrom true (literalBody cs ++ '"' :: rest) = '"' :: codeFrom false rest := by
  induction cs with
  | nil => rfl
  | cons c cs ih =>
    rw [literalBody, List.flatMap_cons, List.append_assoc]
    change codeFrom true (literalChar c ++ (literalBody cs ++ '"' :: rest)) = _
    unfold literalChar
    split
    · exact ih
    · split
      · exact ih
      · split
        · exact ih
        · split
          · exact ih
          · rename_i hquote hslash _ _
            rw [List.singleton_append, codeFrom, ih]
            · exact fun _ _ he => absurd he hslash
            · exact hquote

theorem codeFrom_cons {c : Char} (h : c ≠ '"') (rest : List Char) :
    codeFrom false (c :: rest) = c :: codeFrom false rest := by
  have hnot : '"' ∉ [c] := by simpa using Ne.symm h
  exact codeFrom_append hnot rest

/-- A text whose tokens are known as soon as a symbol follows. -/
def Lexes (cs : List Char) (ts : List Token) : Prop :=
  ∀ c rest, isNameChar c = false → lex (cs ++ c :: rest) = ts ++ lex (c :: rest)

theorem lex_symbol {c : Char} (hc : isNameChar c = false) (hquote : c ≠ '"') (hblank : c ≠ ' ')
    (rest : List Char) : lex (c :: rest) = .symbol c :: lex rest := by
  have hcode := codeFrom_cons hquote rest
  simp [lex, hcode, tokens, hc, visible, hblank]

theorem lex_blank (rest : List Char) : lex (' ' :: rest) = lex rest := by
  have hcode : codeFrom false (' ' :: rest) = ' ' :: codeFrom false rest := rfl
  simp [lex, hcode, tokens, isNameChar, visible]

theorem Lexes.plain {cs : List Char} (h : '"' ∉ cs) : Lexes cs (visible (tokens cs)) := by
  intro c rest hc
  obtain ⟨tail, htail⟩ : ∃ tail, codeFrom false (c :: rest) = c :: tail := by
    by_cases hquote : c = '"'
    · subst hquote
      exact ⟨_, rfl⟩
    · exact ⟨_, codeFrom_cons hquote rest⟩
  rw [lex, lex, codeFrom_append h, htail, tokens_append_symbol hc, tokens, hc, visible, visible,
    visible, List.filter_append]
  rfl

theorem Lexes.name {cs : List Char} (hne : cs ≠ []) (h : IsWord cs) : Lexes cs [.name cs] := by
  have hquote : '"' ∉ cs := fun hmem => absurd (h '"' hmem) (by decide)
  have hlexes := Lexes.plain hquote
  rwa [tokens_name hne h] at hlexes

theorem lex_literal (s : String) (rest : List Char) :
    lex ((literal s).toList ++ rest) = .symbol '"' :: .symbol '"' :: lex rest := by
  have hcode : codeFrom false ((literal s).toList ++ rest) = '"' :: '"' :: codeFrom false rest := by
    have hbody := codeFrom_literalBody s.toList rest
    simp only [literal, String.toList_ofList, List.cons_append, List.append_assoc, List.nil_append,
      codeFrom, hbody]
  simp [lex, hcode, tokens, isNameChar, visible]

theorem Lexes.nil : Lexes [] [] := fun _ _ _ => rfl

theorem Lexes.symbol {a b : List Char} {us vs : List Token} (ha : Lexes a us) {c : Char}
    (hc : isNameChar c = false) (hquote : c ≠ '"') (hblank : c ≠ ' ') (hb : Lexes b vs) :
    Lexes (a ++ c :: b) (us ++ .symbol c :: vs) := by
  intro d rest hd
  rw [List.append_assoc, List.cons_append, ha c _ hc, lex_symbol hc hquote hblank, hb d rest hd,
    List.append_assoc, List.cons_append]

theorem Lexes.blank {a b : List Char} {us vs : List Token} (ha : Lexes a us) (hb : Lexes b vs) :
    Lexes (a ++ ' ' :: b) (us ++ vs) := by
  intro d rest hd
  rw [List.append_assoc, List.cons_append, ha ' ' _ (by decide), lex_blank, hb d rest hd,
    List.append_assoc]

theorem Lexes.literal (s : String) : Lexes (literal s).toList [.symbol '"', .symbol '"'] :=
  fun _ _ _ => lex_literal s _

end Statement

end Dashboard

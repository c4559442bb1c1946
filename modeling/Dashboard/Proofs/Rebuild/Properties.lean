import Dashboard.Document.Retained
import Dashboard.Proofs.Rebuild.Sections
import Dashboard.Proofs.Table
import Mathlib.Tactic.SplitIfs
/-!
# The lines of properties

The nodes of a retained document are written as properties, which nest. Each property starts a line with
its name, and in a list of objects the first property of each object stands behind a dash. A rebuild takes
none of these lines for the start of a page: that is a dash before the name of an id. Texts stay on their
lines, since a text that is no plain word is quoted; only code is written in lines of its own.
-/

namespace Dashboard

open Text Number

/-! ## Lines that start no page -/

namespace Rebuild

theorem retainedPage?_word (n : Nat) {c : Char} (hc : isBlank c = false) (hdash : c ≠ '-') (cs : List Char) :
    retainedPage? (List.replicate n ' ' ++ c :: cs) = none := by
  have hword : "-".toList.isPrefixOf? (c :: cs) = none := by
    refine Option.eq_none_iff_forall_ne_some.mpr fun rest hrest => hdash ?_
    exact (List.cons.inj (eq_append_of_isPrefixOf? hrest)).1
  rw [retainedPage?, afterWords?, skipBlank_indent, skipBlank_cons hc, hword]
  rfl

/-- Behind a dash, only the name of an id is followed by that of a page. -/
theorem retainedPage?_item (n : Nat) {c : Char} (hc : isBlank c = false) {cs : List Char}
    (hid : "id:".toList.isPrefixOf? (c :: cs) = none) :
    retainedPage? (List.replicate n ' ' ++ '-' :: ' ' :: c :: cs) = none := by
  have hdash : "-".toList.isPrefixOf? ('-' :: ' ' :: c :: cs) = some (' ' :: c :: cs) := rfl
  have hskip : skipBlank (' ' :: c :: cs) = c :: cs := (skipBlank_indent 1 _).trans (skipBlank_cons hc cs)
  rw [retainedPage?, afterWords?, skipBlank_indent, skipBlank_cons (by decide), hdash, Option.bind_some,
    afterWords?, hskip, hid]
  rfl

end Rebuild

namespace Yaml

/-- A line in the description of the pages that starts none of them. -/
structure IsProperty (l : String) : Prop where
  oneLine : OneLine l
  reaches : Region.Reaches 2 (Region.scanned l)
  silent : Rebuild.retainedPage? (Region.scanned l).toList = none

/-! ## Names -/

/-- A name that a line can start with. -/
def IsName (name : String) : Prop := isPlainWord name.toList = true

instance (name : String) : Decidable (IsName name) := inferInstanceAs (Decidable (_ = _))

theorem toNat_of_isWordStart {c : Char} (h : isWordStart c = true) : 65 ≤ c.toNat ∧ c.toNat ≤ 122 := by
  simp only [isWordStart, Bool.or_eq_true, beq_iff_eq] at h
  rcases h with h | rfl
  · delta Char.isAlpha Char.isUpper Char.isLower at h
    simp only [Bool.or_eq_true, Bool.and_eq_true, decide_eq_true_eq, UInt32.le_iff_toNat_le] at h
    change 65 ≤ c.val.toNat ∧ c.val.toNat ≤ 122
    rcases h with ⟨hlow, hhigh⟩ | ⟨hlow, hhigh⟩
    · exact ⟨hlow, Nat.le_trans hhigh (by decide)⟩
    · exact ⟨Nat.le_trans (by decide) hlow, hhigh⟩
  · decide

theorem isBlank_of_isWordStart {c : Char} (h : isWordStart c = true) : isBlank c = false := by
  have hrange := toNat_of_isWordStart h
  simp only [isBlank, Bool.or_eq_false_iff, Bool.and_eq_false_iff, beq_eq_false_iff_ne, decide_eq_false_iff_not]
  omega

namespace IsName

variable {name : String}

theorem exists_cons (h : IsName name) : ∃ c cs, name.toList = c :: cs ∧ isWordStart c = true := by
  unfold IsName at h
  cases hname : name.toList with
  | nil =>
    rw [hname] at h
    cases h
  | cons c cs =>
    rw [hname] at h
    exact ⟨c, cs, rfl, (Bool.and_eq_true_iff.mp h).1⟩

theorem not_mem (h : IsName name) {c : Char} (hstart : isWordStart c = false) (hpart : isWordPart c = false) :
    c ∉ name.toList := by
  unfold IsName at h
  cases hname : name.toList with
  | nil => exact List.not_mem_nil
  | cons d ds =>
    rw [hname] at h
    obtain ⟨hd, hds⟩ := Bool.and_eq_true_iff.mp h
    rintro (_ | ⟨_, hmem⟩)
    · rw [hd] at hstart
      cases hstart
    · rw [List.all_eq_true.mp hds c hmem] at hpart
      cases hpart

theorem oneLine (h : IsName name) : OneLine name := h.not_mem (by decide) (by decide)

theorem isClean (h : IsName name) : Region.IsClean name :=
  ⟨h.not_mem (by decide) (by decide), h.not_mem (by decide) (by decide)⟩

theorem isProperty (h : IsName name) {n : Nat} (hn : 2 ≤ n) {s : String} (hs : OneLine s) :
    IsProperty (spaces n ++ (name ++ s)) where
  oneLine := (OneLine.spaces n).append (h.oneLine.append hs)
  reaches := Region.reaches_spaces hn _
  silent := by
    obtain ⟨c, cs, hname, hc⟩ := h.exists_cons
    have hdash : c ≠ '-' := fun he => absurd hc (by rw [he]; decide)
    rw [Region.toList_scanned_spaces, Region.scanned_append h.isClean, hname]
    exact Rebuild.retainedPage?_word n (isBlank_of_isWordStart hc) hdash _

/-- No other name is read as that of an id. -/
theorem isPrefixOf?_id (h : IsName name) (hid : name ≠ "id") (cs : List Char) :
    "id:".toList.isPrefixOf? (name.toList ++ ':' :: cs) = none := by
  refine Option.eq_none_iff_forall_ne_some.mpr fun rest hrest => hid ?_
  have hcolon : ∀ c ∈ name.toList, (c != ':') = true := fun c hc =>
    bne_iff_ne.mpr fun he => h.not_mem (by decide) (by decide) (he ▸ hc)
  have hstart : (name.toList ++ ':' :: cs).takeWhile (· != ':') = name.toList := by
    rw [List.takeWhile_append_of_pos hcolon]
    simp
  rw [eq_append_of_isPrefixOf? hrest] at hstart
  exact String.toList_inj.mp hstart.symm

/-- A line that starts with a dash before a name. -/
theorem isProperty_item (h : IsName name) (hid : name ≠ "id") {n : Nat} (hn : 2 ≤ n) {s : String}
    (hs : OneLine s) : IsProperty (spaces n ++ ("- " ++ (name ++ (":" ++ s)))) where
  oneLine := (OneLine.spaces n).append ((by decide : OneLine "- ").append
    (h.oneLine.append ((by decide : OneLine ":").append hs)))
  reaches := Region.reaches_spaces hn _
  silent := by
    obtain ⟨c, cs, hname, hc⟩ := h.exists_cons
    have hprefix := h.isPrefixOf?_id hid (Region.scanned s).toList
    rw [Region.toList_scanned_spaces, Region.scanned_append (by decide), Region.scanned_append h.isClean,
      Region.scanned_append (by decide)]
    change Rebuild.retainedPage? (_ ++ '-' :: ' ' :: (name.toList ++ ':' :: (Region.scanned s).toList)) = none
    rw [hname] at hprefix ⊢
    exact Rebuild.retainedPage?_item n (isBlank_of_isWordStart hc) hprefix

end IsName

/-! ## Texts -/

theorem newline_not_mem_escapedChar (c : Char) : '\n' ∉ Json.escapedChar c := by
  have hdigit : ∀ n : Fin 16, '\n' ≠ Json.hexDigit n := by decide
  unfold Json.escapedChar
  split_ifs with hquote hslash hfeed hreturn htab hback hform hlow
  any_goals decide
  · have hhigh : '\n' ≠ Json.hexDigit (c.toNat / 16) := hdigit ⟨c.toNat / 16, by omega⟩
    have hrest : '\n' ≠ Json.hexDigit (c.toNat % 16) := hdigit ⟨c.toNat % 16, by omega⟩
    simp [hhigh, hrest]
  · exact fun hmem => hfeed (List.mem_singleton.mp hmem).symm

theorem oneLine_quote (s : String) : OneLine (Json.quote s) := by
  refine .ofList fun h => ?_
  simp only [Json.stringChars, List.cons_append, List.mem_cons, List.mem_append, List.mem_flatMap,
    List.not_mem_nil, or_false] at h
  rcases h with h | ⟨c, -, h⟩ | h
  · exact absurd h (by decide)
  · exact newline_not_mem_escapedChar c h
  · exact absurd h (by decide)

theorem exists_of_isHexNumber {cs : List Char} (h : isHexNumber cs = true) :
    ∃ ds, cs = '0' :: 'x' :: ds ∧ ds ≠ [] ∧ ∀ d ∈ ds, isHexDigit d = true := by
  unfold isHexNumber at h
  split at h
  · rename_i ds
    obtain ⟨hne, hdigits⟩ := Bool.and_eq_true_iff.mp h
    exact ⟨ds, rfl, by simpa using hne, List.all_eq_true.mp hdigits⟩
  · cases h

theorem exists_of_isPercentage {cs : List Char} (h : isPercentage cs = true) :
    ∃ c ds, cs = c :: (ds ++ ['%']) ∧ ∀ d ∈ c :: ds, d.isDigit = true := by
  unfold isPercentage beforeLast? at h
  cases hs : cs.reverse with
  | nil => cases hs ▸ h
  | cons d front =>
    rw [hs] at h
    by_cases hd : d = '%'
    · simp only [if_pos hd, Bool.and_eq_true, List.all_eq_true] at h
      obtain ⟨c, ds, hfront⟩ := List.exists_cons_of_ne_nil (by simpa using h.1 : front.reverse ≠ [])
      refine ⟨c, ds, ?_, hfront ▸ h.2⟩
      rw [← List.cons_append, ← hfront, ← hd, ← List.reverse_cons, ← hs, List.reverse_reverse]
    · simp only [if_neg hd] at h
      cases h

theorem oneLine_of_isHexNumber {s : String} (h : isHexNumber s.toList = true) : OneLine s := by
  obtain ⟨ds, hs, -, hdigits⟩ := exists_of_isHexNumber h
  rw [OneLine, hs]
  rintro (_ | ⟨_, _ | ⟨_, hmem⟩⟩)
  exact absurd (hdigits '\n' hmem) (by decide)

theorem oneLine_of_isPercentage {s : String} (h : isPercentage s.toList = true) : OneLine s := by
  obtain ⟨c, ds, hs, hdigits⟩ := exists_of_isPercentage h
  rw [OneLine, hs, ← List.cons_append, List.mem_append]
  rintro (hmem | hmem)
  · exact absurd (hdigits '\n' hmem) (by decide)
  · exact absurd hmem (by decide)

theorem oneLine_of_isPlain {s : String} (h : isPlain s = true) : OneLine s := by
  have hkinds := (Bool.and_eq_true_iff.mp h).2
  simp only [Bool.or_eq_true] at hkinds
  rcases hkinds with (hhex | hpercent) | hword
  · exact oneLine_of_isHexNumber hhex
  · exact oneLine_of_isPercentage hpercent
  · exact IsName.oneLine hword

/-- A text that stays on its line when it is written. Beside plain words, only a text with the tag of code
in front is written as it is. -/
def KeepsLine (s : String) : Prop := startsWith "!lambda" s = true → OneLine s

instance (s : String) : Decidable (KeepsLine s) := inferInstanceAs (Decidable (_ → _))

theorem keepsLine_of_oneLine {s : String} (h : OneLine s) : KeepsLine s := fun _ => h

theorem KeepsLine.oneLine_stringText {s : String} (h : KeepsLine s) : OneLine (stringText s) := by
  unfold stringText
  split
  · next hraw =>
    rcases Bool.or_eq_true_iff.mp hraw with htag | hplain
    · exact h htag
    · exact oneLine_of_isPlain hplain
  · exact oneLine_quote s

/-! ## Code -/

/-- A line of code: it starts with a word and ends with a semicolon. -/
def IsStatement (l : String) : Prop := ∃ word s, IsName word ∧ OneLine s ∧ l = word ++ (s ++ ";")

namespace IsStatement

variable {l : String}

theorem oneLine (h : IsStatement l) : OneLine l := by
  obtain ⟨word, s, hword, hs, rfl⟩ := h
  exact hword.oneLine.append (hs.append (by decide))

theorem getLast? (h : IsStatement l) : l.toList.getLast? = some ';' := by
  obtain ⟨word, s, -, -, rfl⟩ := h
  simp

theorem isProperty (h : IsStatement l) {n : Nat} (hn : 2 ≤ n) : IsProperty (spaces n ++ l) := by
  obtain ⟨word, s, hword, hs, rfl⟩ := h
  exact hword.isProperty hn (hs.append (by decide))

end IsStatement

theorem toList_join (ls : List String) :
    (String.join (ls.map ("\n" ++ ·))).toList = ls.flatMap fun l => '\n' :: l.toList := by
  simp [String.toList_join, List.flatMap_map]

theorem lineChars_singleton {line : List Char} (h : '\n' ∉ line) (hne : line ≠ []) : lineChars line = [line] := by
  induction line with
  | nil => exact absurd rfl hne
  | cons c cs ih =>
    have hcs : '\n' ∉ cs := fun hm => h (List.mem_cons_of_mem c hm)
    rw [lineChars]
    · cases cs with
      | nil => rfl
      | cons d ds => rw [ih hcs (List.cons_ne_nil d ds)]
    · exact fun he => h (he ▸ List.mem_cons_self)
    · intro cs' _ he
      exact hcs (he ▸ List.mem_cons_self)

/-- The lines of a text are those that it is joined from, if none of them is empty or loses its end. -/
theorem lineChars_flatMap {first : String} {ls : List String}
    (h : ∀ l ∈ first :: ls, OneLine l ∧ l.toList ≠ [] ∧ l.toList.getLast? ≠ some '\r') :
    lineChars (first.toList ++ ls.flatMap fun l => '\n' :: l.toList) = (first :: ls).map String.toList := by
  induction ls generalizing first with
  | nil =>
    obtain ⟨hline, hne, -⟩ := h first List.mem_cons_self
    rw [List.flatMap_nil, List.append_nil, lineChars_singleton hline hne]
    rfl
  | cons l ls ih =>
    obtain ⟨hline, -, hlast⟩ := h first List.mem_cons_self
    rw [List.flatMap_cons, List.cons_append, lineChars_append hline hlast,
      ih fun l' hl' => h l' (List.mem_cons_of_mem first hl')]
    rfl

theorem lines_lambda {code : List String} (h : ∀ l ∈ code, IsStatement l) :
    lines ("!lambda |-" ++ String.join (code.map ("\n" ++ ·))) = "!lambda |-" :: code := by
  have hkept : ∀ l ∈ "!lambda |-" :: code, OneLine l ∧ l.toList ≠ [] ∧ l.toList.getLast? ≠ some '\r' := by
    refine List.forall_mem_cons.mpr ⟨by decide, fun l hl => ⟨(h l hl).oneLine, fun hnil => ?_, ?_⟩⟩
    · have hlast := (h l hl).getLast?
      rw [hnil] at hlast
      cases hlast
    · rw [(h l hl).getLast?]
      decide
  rw [lines, String.toList_append, toList_join, lineChars_flatMap hkept, List.map_map]
  exact (List.map_congr_left fun l _ => String.ofList_toList).trans (List.map_id _)

/-! ## Properties and their values -/

/-- The lines of a property: one that starts with its name, and further ones. -/
def IsEntry (indent : Nat) (key : String) (ls : List String) : Prop :=
  ∃ rest tail, ls = (spaces indent ++ (key ++ (":" ++ rest))) :: tail ∧ OneLine rest ∧
    ∀ l ∈ tail, IsProperty l

/-- A value whose property starts no page: it stands behind the name, or it is code, or it consists of
further properties. -/
inductive IsTame : Json → Prop
  | inline {v : Json}
      (hline : ∀ indent key, entryLines indent key v = [spaces indent ++ key ++ ": " ++ scalar v])
      (h : OneLine (scalar v)) : IsTame v
  | code {l : String} {ls : List String} (h : ∀ l' ∈ l :: ls, IsStatement l') : IsTame (lambdaValue (l :: ls))
  | fields {fs : Bag} (hnames : ∀ f ∈ fs, IsName f.1) (h : ∀ f ∈ fs, IsTame f.2) : IsTame (.object fs)
  | items {fss : List Bag} (hnames : ∀ fs ∈ fss, ∀ f ∈ fs, IsName f.1 ∧ f.1 ≠ "id")
      (h : ∀ fs ∈ fss, ∀ f ∈ fs, IsTame f.2) : IsTame (.array (fss.map .object))

variable {indent : Nat} {key : String} {v : Json}

theorem IsEntry.isProperty {ls : List String} (h : IsEntry indent key ls) (hkey : IsName key) (hindent : 2 ≤ indent) :
    ∀ l ∈ ls, IsProperty l := by
  obtain ⟨rest, tail, rfl, hrest, htail⟩ := h
  exact List.forall_mem_cons.mpr ⟨hkey.isProperty hindent ((by decide : OneLine ":").append hrest), htail⟩

theorem isProperty_fieldLines (hindent : 2 ≤ indent) {fs : Bag} (hnames : ∀ f ∈ fs, IsName f.1)
    (h : ∀ f ∈ fs, IsEntry indent f.1 (entryLines indent f.1 f.2)) :
    ∀ l ∈ fieldLines indent fs, IsProperty l := by
  induction fs with
  | nil =>
    rw [fieldLines]
    exact fun l hl => absurd hl List.not_mem_nil
  | cons f fs ih =>
    rw [fieldLines]
    exact List.forall_mem_append.mpr ⟨(h f List.mem_cons_self).isProperty (hnames f List.mem_cons_self) hindent,
      ih (fun f' hf' => hnames f' (List.mem_cons_of_mem f hf')) fun f' hf' => h f' (List.mem_cons_of_mem f hf')⟩

theorem isEntry_behind {s : String} {tail : List String} (hs : OneLine s) (htail : ∀ l ∈ tail, IsProperty l) :
    IsEntry indent key ((spaces indent ++ key ++ ": " ++ s) :: tail) := by
  have hcolon : ": " = ":" ++ " " := rfl
  refine ⟨" " ++ s, tail, ?_, (by decide : OneLine " ").append hs, htail⟩
  rw [hcolon]
  simp only [String.append_assoc]

theorem isEntry_above {tail : List String} (htail : ∀ l ∈ tail, IsProperty l) :
    IsEntry indent key ((spaces indent ++ key ++ ":") :: tail) :=
  ⟨"", tail, by rw [String.append_empty, String.append_assoc], by decide, htail⟩

/-- The dash takes the place of two columns of the first line. -/
theorem isProperty_dashed {fs : Bag} (hnames : ∀ f ∈ fs, IsName f.1 ∧ f.1 ≠ "id")
    (h : ∀ f ∈ fs, IsEntry (indent + 4) f.1 (entryLines (indent + 4) f.1 f.2)) :
    ∀ l ∈ dashed indent (fieldLines (indent + 4) fs), IsProperty l := by
  cases fs with
  | nil =>
    rw [fieldLines]
    exact fun l hl => absurd hl List.not_mem_nil
  | cons f fs =>
    obtain ⟨hname, hid⟩ := hnames f List.mem_cons_self
    obtain ⟨rest, tail, hls, hrest, htail⟩ := h f List.mem_cons_self
    have hothers := isProperty_fieldLines (by omega) (fun f' hf' => (hnames f' (List.mem_cons_of_mem f hf')).1)
      fun f' hf' => h f' (List.mem_cons_of_mem f hf')
    have hfirst : spaces (indent + 2) ++ "- " ++
        String.ofList ((spaces (indent + 4) ++ (f.1 ++ (":" ++ rest))).toList.drop (indent + 4)) =
          spaces (indent + 2) ++ ("- " ++ (f.1 ++ (":" ++ rest))) := by
      rw [String.toList_append, toList_spaces, List.drop_left' List.length_replicate, String.ofList_toList,
        String.append_assoc]
    rw [fieldLines, hls, List.cons_append, dashed, hfirst]
    exact List.forall_mem_cons.mpr ⟨hname.isProperty_item hid (by omega) hrest,
      List.forall_mem_append.mpr ⟨htail, hothers⟩⟩

theorem isProperty_itemLines {fss : List Bag} (hnames : ∀ fs ∈ fss, ∀ f ∈ fs, IsName f.1 ∧ f.1 ≠ "id")
    (h : ∀ fs ∈ fss, ∀ f ∈ fs, IsEntry (indent + 4) f.1 (entryLines (indent + 4) f.1 f.2)) :
    ∀ l ∈ itemLines indent (fss.map .object), IsProperty l := by
  induction fss with
  | nil =>
    rw [List.map_nil, itemLines]
    exact fun l hl => absurd hl List.not_mem_nil
  | cons fs fss ih =>
    rw [List.map_cons, itemLines]
    exact List.forall_mem_append.mpr ⟨isProperty_dashed (hnames fs List.mem_cons_self) (h fs List.mem_cons_self),
      ih (fun fs' hfs' => hnames fs' (List.mem_cons_of_mem fs hfs'))
        fun fs' hfs' => h fs' (List.mem_cons_of_mem fs hfs')⟩

/-- By induction on the value: only the first line has the name of the property, and it starts with it. -/
theorem IsTame.isEntry (h : IsTame v) (hindent : 2 ≤ indent) (key : String) :
    IsEntry indent key (entryLines indent key v) := by
  induction h generalizing indent key with
  | inline hline h =>
    rw [hline]
    exact isEntry_behind h fun l hl => absurd hl List.not_mem_nil
  | @code l ls h =>
    have hblock : isLambdaBlock ("!lambda |-" ++ String.join ((l :: ls).map ("\n" ++ ·))) = true := by
      have hstart : startsWith "!lambda" ("!lambda |-" ++ String.join ((l :: ls).map ("\n" ++ ·))) = true := by
        rw [startsWith, String.toList_append]
        rfl
      rw [isLambdaBlock, hstart, String.toList_append, toList_join, List.flatMap_cons]
      simp
    rw [lambdaValue, entryLines, if_pos hblock, lambdaLines, lines_lambda h]
    refine isEntry_behind (by decide) fun l' hl' => ?_
    obtain ⟨c, hc, rfl⟩ := List.mem_map.mp hl'
    exact (h c hc).isProperty (by omega)
  | @fields fs hnames h ih =>
    have hdeeper : ∀ f ∈ fs, IsEntry (indent + 2) f.1 (entryLines (indent + 2) f.1 f.2) := fun f hf =>
      ih f hf (by omega) f.1
    cases fs with
    | nil =>
      rw [entryLines, scalar]
      · exact isEntry_behind (by decide) fun l hl => absurd hl List.not_mem_nil
      all_goals simp
    | cons f fs =>
      rw [entryLines]
      exact isEntry_above (isProperty_fieldLines (by omega) hnames hdeeper)
  | @items fss hnames h ih =>
    have hdeeper : ∀ fs ∈ fss, ∀ f ∈ fs, IsEntry (indent + 4) f.1 (entryLines (indent + 4) f.1 f.2) :=
      fun fs hfs f hf => ih fs hfs f hf (by omega) f.1
    cases fss with
    | nil =>
      rw [List.map_nil, entryLines]
      exact isEntry_behind (by decide) fun l hl => absurd hl List.not_mem_nil
    | cons fs fss =>
      rw [entryLines, if_pos (by rfl)]
      exact isEntry_above (isProperty_itemLines hnames hdeeper)

/-! ## Written values -/

theorem isTame_string {s : String} (h : KeepsLine s) : IsTame (.string s) := by
  have hblock : isLambdaBlock s = false := by
    rw [Bool.eq_false_iff]
    intro hblock
    obtain ⟨htag, hbreak⟩ := Bool.and_eq_true_iff.mp hblock
    exact h htag (List.contains_iff_mem.mp hbreak)
  refine .inline (fun indent key => ?_) ?_
  · rw [entryLines, hblock, if_neg Bool.false_ne_true, scalar]
  · rw [scalar]
    exact h.oneLine_stringText

theorem isTame_ofInt (i : Int) : IsTame (.ofInt i) := by
  refine .inline (fun indent key => ?_) (oneLine_intText i)
  rw [Json.ofInt, entryLines]
  all_goals simp

theorem scalars_strings (ss : List String) : scalars (ss.map .string) = ss.map stringText := by
  induction ss with
  | nil => rw [List.map_nil, scalars, List.map_nil]
  | cons s ss ih => rw [List.map_cons, scalars, scalar, ih, List.map_cons]

theorem isTame_ofStrings {ss : List String} (h : ∀ s ∈ ss, KeepsLine s) : IsTame (.ofStrings ss) := by
  have hplain : (ss.map Json.string).any Json.isObject = false := by simp [Json.isObject]
  refine .inline (fun indent key => ?_) ?_
  · rw [Json.ofStrings, entryLines, hplain, if_neg Bool.false_ne_true]
  · rw [Json.ofStrings, scalar, scalars_strings]
    refine ((by decide : OneLine "[").append (.joined (by decide) fun s hs => ?_)).append (by decide)
    obtain ⟨text, htext, rfl⟩ := List.mem_map.mp hs
    exact (h text htext).oneLine_stringText

end Yaml

/-! ## Nodes -/

namespace RetainedNode

open Yaml

/-- A node none of whose lines starts a page. -/
structure IsInert (n : RetainedNode) : Prop where
  tag : Yaml.IsName n.tag ∧ n.tag ≠ "id"
  props : ∀ e ∈ n.props, Yaml.IsName e.1 ∧ IsTame e.2

namespace IsInert

variable {n : RetainedNode} {key : String}

theorem put (h : n.IsInert) (hkey : Yaml.IsName key) {value : Json} (hvalue : IsTame value) :
    (n.put key value).IsInert where
  tag := h.tag
  props := fun e he => (Table.mem_put he).elim (fun heq => heq ▸ ⟨hkey, hvalue⟩) (h.props e)

theorem putText (h : n.IsInert) (hkey : Yaml.IsName key) {value : String} (hvalue : KeepsLine value) :
    (n.putText key value).IsInert := h.put hkey (isTame_string hvalue)

theorem putPixel (h : n.IsInert) (hkey : Yaml.IsName key) (value : Pixel) : (n.putPixel key value).IsInert :=
  h.put hkey (isTame_ofInt _)

theorem putCount (h : n.IsInert) (hkey : Yaml.IsName key) (value : UInt32) : (n.putCount key value).IsInert :=
  h.put hkey (isTame_ofInt _)

theorem putTextIf (h : n.IsInert) (hkey : Yaml.IsName key) {value : Option String}
    (hvalue : ∀ v, value = some v → KeepsLine v) : (n.putTextIf key value).IsInert := by
  cases value with
  | none => exact h
  | some v => exact h.putText hkey (hvalue v rfl)

end IsInert

theorem isInert_mk {tag : String} (h : Yaml.IsName tag ∧ tag ≠ "id") : (RetainedNode.mk tag []).IsInert where
  tag := h
  props := fun _ he => absurd he List.not_mem_nil

theorem isInert_ofWidget {tag : String} (h : Yaml.IsName tag ∧ tag ≠ "id") {w : Widget} (hid : OneLine w.id) :
    (ofWidget tag w).IsInert :=
  ((((isInert_mk h).putText (by decide) (keepsLine_of_oneLine hid)).putPixel (by decide) _).putPixel (by decide)
    _).putPixel (by decide) _ |>.putPixel (by decide) _

end RetainedNode

namespace RetainedDocument

theorem isProperty_nodeLines {n : RetainedNode} (h : n.IsInert) : ∀ l ∈ nodeLines n, Yaml.IsProperty l := by
  have hhead : Yaml.IsProperty ("        - " ++ n.tag ++ ":") := by
    have hline := h.tag.1.isProperty_item h.tag.2 (n := 8) (s := "") (by omega) (by decide)
    rw [String.append_empty, ← String.append_assoc, ← String.append_assoc] at hline
    exact hline
  exact List.forall_mem_cons.mpr ⟨hhead, Yaml.isProperty_fieldLines (by omega) (fun e he => (h.props e he).1)
    fun e he => (h.props e he).2.isEntry (by omega) e.1⟩

end RetainedDocument

end Dashboard

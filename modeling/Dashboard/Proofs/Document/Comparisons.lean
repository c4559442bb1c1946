import Dashboard.Proofs.Document.Guards
import Dashboard.Proofs.Number.Literals
import Dashboard.Proofs.Text.Literals
/-!
# The grammar of guards

A guard is the state of a component, its negation, a comparison with a number or with a text, or two
comparisons with bounds. A number stands in it as a literal exactly if it is finite: the words for the others
are no literals, and a guard that compares with one is no expression.
-/

namespace Dashboard

open Text Number

namespace Text

variable {c d : Char} {ds : List Char}

theorem fields_ne_nil (c : Char) (cs : List Char) : fields c cs ≠ [] := by
  cases cs with
  | nil => exact List.cons_ne_nil _ _
  | cons d ds =>
    rw [fields]
    split
    · exact List.cons_ne_nil _ _
    · split <;> exact List.cons_ne_nil _ _

theorem fields_cut (c : Char) (ds : List Char) : fields c (c :: ds) = [] :: fields c ds := by
  obtain ⟨f, fs, h⟩ := List.exists_cons_of_ne_nil (fields_ne_nil c ds)
  rw [fields, h]
  exact if_pos rfl

theorem fields_cons (h : d ≠ c) (ds : List Char) : ∃ f fs, fields c ds = f :: fs ∧ fields c (d :: ds) = (d :: f) :: fs := by
  obtain ⟨f, fs, hfields⟩ := List.exists_cons_of_ne_nil (fields_ne_nil c ds)
  refine ⟨f, fs, hfields, ?_⟩
  rw [fields, hfields]
  exact if_neg h

theorem fields_append (h : c ∉ ds) (rest : List Char) : fields c (ds ++ c :: rest) = ds :: fields c rest := by
  induction ds with
  | nil => exact fields_cut c rest
  | cons d ds ih =>
    obtain ⟨f, fs, hfields, hcons⟩ := fields_cons (List.ne_of_not_mem_cons h).symm (ds ++ c :: rest)
    rw [ih (List.not_mem_of_not_mem_cons h)] at hfields
    obtain ⟨rfl, rfl⟩ := List.cons.inj hfields
    exact hcons

theorem fields_of_not_mem (h : c ∉ ds) : fields c ds = [ds] := by
  induction ds with
  | nil => rfl
  | cons d ds ih =>
    obtain ⟨f, fs, hfields, hcons⟩ := fields_cons (List.ne_of_not_mem_cons h).symm ds
    rw [ih (List.not_mem_of_not_mem_cons h)] at hfields
    obtain ⟨rfl, rfl⟩ := List.cons.inj hfields
    exact hcons

end Text

namespace Condition

def stateNumber? (c : Condition) : Option Binary64 := (c.state.map trim).bind fun s => Binary64.read? s.toList

/-- The numbers of a condition: its bounds, and its state if that reads as a number. -/
def numbers (c : Condition) : List Binary64 := c.stateNumber?.toList ++ c.lowest.toList ++ c.highest.toList

def expectedText (c : Condition) : String := (c.state.map trim).getD ""

/-- The guards over a state, with the numbers of the condition that they compare with, where `writes` says
which numerals stand for a number. -/
inductive Guards (c : Condition) (writes : String → Binary64 → Prop) (state : String) :
    List Binary64 → String → Prop where
  | holds : Guards c writes state [] state
  | fails : Guards c writes state [] ("!" ++ state)
  | compares {op n : String} {x : Binary64} (hop : op ∈ ["==", "!=", "<", ">", "<=", ">="])
      (hx : x ∈ c.numbers) (hn : writes n x) : Guards c writes state [x] (state ++ " " ++ op ++ " " ++ n)
  | between {n m : String} {l u : Binary64} (hl : c.lowest = some l) (hu : c.highest = some u)
      (hn : writes n l) (hm : writes m u) :
      Guards c writes state [l, u] (state ++ " >= " ++ n ++ " && " ++ state ++ " <= " ++ m)
  | equals {op t : String} (hop : op ∈ ["==", "!="]) (ht : readLiteral? t.toList = some c.expectedText.toList) :
      Guards c writes state [] (state ++ " " ++ op ++ " " ++ t)

/-- An expression over the state of a component whose numerals are literals for the numbers of the
condition and whose text is the expected one. -/
def IsExpressedBy (c : Condition) (g : String) : Prop :=
  ∃ slug numbers, (∀ ch ∈ slug.toList, ch.isAlphanum = true ∨ ch = '_') ∧
    c.Guards Denotes ("id(" ++ slug ++ ").state") numbers g

/-- The numbers that the guard of an entity compares with. -/
def compared (c : Condition) (entity : String) : List Binary64 :=
  if c.operatorOf = "range" then c.lowest.toList ++ c.highest.toList
  else if SensorKind.of entity = .sensor then (c.comparedNumber? c.operatorOf (c.state.map trim)).toList
  else []

variable {c : Condition} {writes writes' : String → Binary64 → Prop} {state g : String} {xs : List Binary64}

theorem Guards.imp (h : c.Guards writes state xs g) (himp : ∀ x ∈ xs, ∀ n, writes n x → writes' n x) :
    c.Guards writes' state xs g := by
  cases h with
  | holds => exact .holds
  | fails => exact .fails
  | compares hop hx hn => exact .compares hop hx (himp _ List.mem_cons_self _ hn)
  | between hl hu hn hm =>
    exact .between hl hu (himp _ List.mem_cons_self _ hn) (himp _ (List.mem_cons_of_mem _ List.mem_cons_self) _ hm)
  | equals hop ht => exact .equals hop ht

/-! ## What a condition is written as -/

def Writes (n : String) (x : Binary64) : Prop := n = x.plainText

theorem mem_numbers_lowest {x : Binary64} (h : c.lowest = some x) : x ∈ c.numbers := by
  simp [numbers, h]

theorem mem_numbers_highest {x : Binary64} (h : c.highest = some x) : x ∈ c.numbers := by
  simp [numbers, h]

theorem mem_numbers_of_comparedNumber? {op : String} {x : Binary64}
    (h : c.comparedNumber? op (c.state.map trim) = some x) : x ∈ c.numbers := by
  rcases Option.or_eq_some_iff.mp h with h | ⟨-, h⟩
  · have hstate : c.stateNumber? = some x := h
    simp [numbers, hstate]
  · split at h
    · exact mem_numbers_lowest h
    · split at h
      · exact mem_numbers_highest h
      · exact nomatch h

theorem mem_of_isEquality {op : String} (h : isEquality op = true) : op ∈ ["==", "!="] := by
  simpa [isEquality] using h

theorem mem_of_isComparison {op : String} (h : isComparison op = true) :
    op ∈ ["==", "!=", "<", ">", "<=", ">="] := by
  simp only [isComparison, isEquality, Bool.or_eq_true, beq_iff_eq] at h
  simp only [List.mem_cons, List.not_mem_nil, or_false]
  tauto

theorem guards_bounded {op : String} {x : Binary64} (hop : op ∈ ["==", "!=", "<", ">", "<=", ">="])
    (hx : x ∈ c.numbers) : c.Guards Writes state [x] (bounded state op x) :=
  .compares hop hx rfl

theorem guards_rangeGuard (h : c.rangeGuard? state = some g) :
    c.Guards Writes state (c.lowest.toList ++ c.highest.toList) g := by
  unfold rangeGuard? at h
  split at h
  · rename_i l u hl hu
    have hboth : c.Guards Writes state [l, u]
        (state ++ " >= " ++ l.plainText ++ " && " ++ state ++ " <= " ++ u.plainText) := .between hl hu rfl rfl
    rw [show " >= " = " " ++ ">=" ++ " " by decide, show " <= " = " " ++ "<=" ++ " " by decide] at hboth
    rw [hl, hu, ← Option.some.inj h, Option.toList_some, Option.toList_some, List.singleton_append]
    simpa only [bounded, String.append_assoc] using hboth
  · rename_i l hl hu
    rw [hl, hu, ← Option.some.inj h]
    exact guards_bounded (by decide) (mem_numbers_lowest hl)
  · rename_i u hl hu
    rw [hl, hu, ← Option.some.inj h]
    exact guards_bounded (by decide) (mem_numbers_highest hu)
  · cases h

theorem guards_binaryGuard {op : String} {expected : Option String} (h : binaryGuard? state op expected = some g) :
    c.Guards Writes state [] g := by
  unfold binaryGuard? at h
  split at h
  · exact nomatch h
  · obtain ⟨on, -, rfl⟩ := Option.map_eq_some_iff.mp h
    split
    · exact .holds
    · exact .fails

theorem guards_textGuard {op : String} (h : textGuard? state op (c.state.map trim) = some g) :
    c.Guards Writes state [] g := by
  unfold textGuard? at h
  split at h
  · exact nomatch h
  · rename_i hop
    rw [← Option.some.inj h]
    exact .equals (mem_of_isEquality (by simpa using hop)) (readLiteral?_literal c.expectedText)

theorem guards_guardFor {entity : String} (h : c.guardFor? entity = some g) :
    c.Guards Writes (stateOf entity) (c.compared entity) g := by
  unfold guardFor? at h
  unfold compared SensorKind.of
  simp only at h
  split at h
  · rename_i hrange
    rw [if_pos hrange]
    exact guards_rangeGuard h
  · rename_i hrange
    rw [if_neg hrange]
    split at h
    · exact nomatch h
    · rename_i hop
      split at h
      · rename_i hbinary
        rw [if_neg (by rw [if_pos hbinary]; split <;> decide)]
        exact guards_binaryGuard h
      · rename_i hbinary
        split at h
        · rename_i htext
          rw [if_neg (by simp [htext])]
          exact guards_textGuard h
        · rename_i htext
          obtain ⟨x, hx, rfl⟩ := Option.map_eq_some_iff.mp h
          rw [if_pos (by rw [if_neg htext, if_neg hbinary]), hx]
          exact guards_bounded (mem_of_isComparison (by simpa using hop)) (mem_numbers_of_comparedNumber? hx)

/-! ## What stands in a guard -/

/-- The numerals of a guard, which are the third of its fields and the last of seven. -/
def numerals (g : String) : List (List Char) :=
  match fields ' ' g.toList with
  | _ :: _ :: n :: rest => if n.head? = some '"' then [] else n :: rest.drop 3
  | _ => []

theorem numerals_bare (h : ' ' ∉ g.toList) : numerals g = [] := by
  rw [numerals, fields_of_not_mem h]

theorem blank_not_mem_operator : ∀ op ∈ ["==", "!=", "<", ">", "<=", ">="], ' ' ∉ op.toList := by decide

theorem toList_compares (state op t : String) :
    (state ++ " " ++ op ++ " " ++ t).toList = state.toList ++ ' ' :: (op.toList ++ ' ' :: t.toList) := by simp

theorem numerals_compares {op n : String} (hstate : ' ' ∉ state.toList) (hop : ' ' ∉ op.toList)
    (hn : ' ' ∉ n.toList) (hquote : n.toList.head? ≠ some '"') :
    numerals (state ++ " " ++ op ++ " " ++ n) = [n.toList] := by
  rw [numerals, toList_compares, fields_append hstate, fields_append hop, fields_of_not_mem hn]
  exact if_neg hquote

theorem numerals_equals {op t : String} (hstate : ' ' ∉ state.toList) (hop : ' ' ∉ op.toList)
    (ht : t.toList.head? = some '"') : numerals (state ++ " " ++ op ++ " " ++ t) = [] := by
  obtain ⟨ts, hts⟩ : ∃ ts, t.toList = '"' :: ts := List.head?_eq_some_iff.mp ht
  obtain ⟨f, fs, -, hfields⟩ := fields_cons (by decide : '"' ≠ ' ') ts
  rw [numerals, toList_compares, fields_append hstate, fields_append hop, hts, hfields]
  exact if_pos rfl

theorem numerals_between {n m : String} (hstate : ' ' ∉ state.toList) (hn : ' ' ∉ n.toList)
    (hm : ' ' ∉ m.toList) (hquote : n.toList.head? ≠ some '"') :
    numerals (state ++ " >= " ++ n ++ " && " ++ state ++ " <= " ++ m) = [n.toList, m.toList] := by
  have hchars : (state ++ " >= " ++ n ++ " && " ++ state ++ " <= " ++ m).toList =
      state.toList ++ ' ' :: (">=".toList ++ ' ' :: (n.toList ++ ' ' :: ("&&".toList ++ ' ' ::
        (state.toList ++ ' ' :: ("<=".toList ++ ' ' :: m.toList))))) := by simp
  rw [numerals, hchars, fields_append hstate, fields_append (by decide), fields_append hn,
    fields_append (by decide), fields_append hstate, fields_append (by decide), fields_of_not_mem hm]
  exact if_neg hquote

def IsPlain (n : String) : Prop := ' ' ∉ n.toList ∧ n.toList.head? ≠ some '"'

theorem IsPlain.of_not_mem {n : String} (hblank : ' ' ∉ n.toList) (hquote : '"' ∉ n.toList) : IsPlain n :=
  ⟨hblank, fun h => hquote (List.mem_of_mem_head? h)⟩

theorem isPlain_of_isLiteral {n : String} (h : IsLiteral n.toList) : IsPlain n := by
  have hchar : ∀ c ∈ n.toList, c.isDigit = true ∨ c ∈ ['-', '.'] := fun c => h.mem
  exact .of_not_mem (fun hm => absurd (hchar ' ' hm) (by decide)) (fun hm => absurd (hchar '"' hm) (by decide))

theorem isPlain_plainText (x : Binary64) : IsPlain x.plainText := by
  cases hx : x.isFinite with
  | true => exact isPlain_of_isLiteral (Binary64.denotes_plainText hx).literal
  | false =>
    cases x with
    | finite s m e h => exact absurd hx.symm Bool.false_ne_true
    | infinite s => cases s <;> exact .of_not_mem (by decide) (by decide)
    | nan => exact .of_not_mem (by decide) (by decide)

/-- The numerals of a guard are what is written for its numbers. -/
theorem Guards.numerals_eq (h : c.Guards writes state xs g) (hstate : ' ' ∉ state.toList)
    (hplain : ∀ x ∈ xs, ∀ n, writes n x → IsPlain n) :
    List.Forall₂ (fun cs x => ∃ n : String, cs = n.toList ∧ writes n x) (numerals g) xs := by
  cases h with
  | holds =>
    rw [numerals_bare hstate]
    exact .nil
  | fails =>
    rw [numerals_bare (by simpa using hstate)]
    exact .nil
  | @compares op n x hop hx hn =>
    obtain ⟨hblank, hquote⟩ := hplain _ List.mem_cons_self _ hn
    rw [numerals_compares hstate (blank_not_mem_operator op hop) hblank hquote]
    exact .cons ⟨_, rfl, hn⟩ .nil
  | between hl hu hn hm =>
    obtain ⟨hblank, hquote⟩ := hplain _ List.mem_cons_self _ hn
    obtain ⟨hblank', -⟩ := hplain _ (List.mem_cons_of_mem _ List.mem_cons_self) _ hm
    rw [numerals_between hstate hblank hblank' hquote]
    exact .cons ⟨_, rfl, hn⟩ (.cons ⟨_, rfl, hm⟩ .nil)
  | @equals op t hop ht =>
    -- a text may have blanks and look like a comparison after them; its quote tells it from a numeral
    have hhead : t.toList.head? = some '"' := by
      unfold readLiteral? at ht
      split at ht
      · rename_i h
        rw [h, List.head?_cons]
      · exact nomatch ht
    have hop' : op ∈ ["==", "!=", "<", ">", "<=", ">="] := List.mem_append_left ["<", ">", "<=", ">="] hop
    rw [numerals_equals hstate (blank_not_mem_operator op hop') hhead]
    exact .nil

/-! ## The guards of conditions -/

theorem blank_not_mem_state {slug : String} (h : ∀ ch ∈ slug.toList, ch.isAlphanum = true ∨ ch = '_') :
    ' ' ∉ ("id(" ++ slug ++ ").state").toList := by
  have hslug : ' ' ∉ slug.toList := fun hm => absurd (h ' ' hm) (by decide)
  simpa using hslug

theorem Guards.isExpressedBy_iff {entity : String} (h : c.Guards Writes (stateOf entity) xs g) :
    c.IsExpressedBy g ↔ ∀ x ∈ xs, x.isFinite = true := by
  have hslug : ∀ ch ∈ (Entity.componentId entity).toList, ch.isAlphanum = true ∨ ch = '_' :=
    fun ch => Entity.mem_componentId
  constructor
  · rintro ⟨slug, numbers, hslug', hguards⟩
    -- both readings find the numerals between the blanks of one text, so what the guard writes is a literal
    have hread := hguards.numerals_eq (blank_not_mem_state hslug') fun _ _ _ hn => isPlain_of_isLiteral hn.literal
    have hand : List.Forall₂ (fun cs x => IsLiteral cs ∧ True) (numerals g) numbers :=
      hread.imp fun _ _ ⟨_, hcs, hn⟩ => ⟨hcs ▸ hn.literal, trivial⟩
    have hliteral : ∀ cs ∈ numerals g, IsLiteral cs := ((List.forall₂_and_left _ _).mp hand).1
    have hours := h.numerals_eq (blank_not_mem_state hslug) fun x _ n hn => hn ▸ isPlain_plainText x
    have heq : numerals g = xs.map fun x => x.plainText.toList :=
      List.forall₂_eq_eq_eq ▸ List.forall₂_map_right_iff.mpr (hours.imp fun _ _ ⟨_, hcs, hn⟩ => hcs.trans (hn ▸ rfl))
    intro x hx
    exact Binary64.isLiteral_plainText_iff.mp (hliteral _ (heq ▸ List.mem_map_of_mem hx))
  · intro hfinite
    refine ⟨Entity.componentId entity, xs, hslug, h.imp fun x hx n hn => ?_⟩
    exact hn ▸ Binary64.denotes_plainText (hfinite x hx)

/-- A guard compares the state of its entity with what the condition names, and it is an expression exactly
if every number it compares with is finite. -/
theorem guard?_isExpressedBy_iff (h : c.guard? = some g) :
    ∃ entity, c.entity?.bind Entity.normalize? = some entity ∧
      c.Guards Writes (stateOf entity) (c.compared entity) g ∧
      (c.IsExpressedBy g ↔ ∀ x ∈ c.compared entity, x.isFinite = true) := by
  obtain ⟨entity, hentity, hguard⟩ := Option.bind_eq_some_iff.mp h
  have hwritten := guards_guardFor hguard
  exact ⟨entity, hentity, hwritten, hwritten.isExpressedBy_iff⟩

def comfortable : Condition where
  entityId := some "temp"
  operator := some "range"
  lowest := Binary64.read? "18".toList
  highest := Binary64.read? "24.5".toList

theorem comfortable_isExpressedBy :
    comfortable.guard? = some "id(sensor_temp).state >= 18 && id(sensor_temp).state <= 24.5" ∧
      comfortable.IsExpressedBy "id(sensor_temp).state >= 18 && id(sensor_temp).state <= 24.5" := by
  have hguard : comfortable.guard? = some "id(sensor_temp).state >= 18 && id(sensor_temp).state <= 24.5" := by
    decide +kernel
  obtain ⟨entity, hentity, -, hiff⟩ := guard?_isExpressedBy_iff hguard
  obtain rfl : "sensor.temp" = entity :=
    Option.some.inj ((by decide : some "sensor.temp" = comfortable.entity?.bind Entity.normalize?).trans hentity)
  exact ⟨hguard, hiff.mpr (by decide +kernel)⟩

/-- A temperature above what reads as a number and is none that code can write. -/
def endless : Condition where
  entityId := some "sensor.temp"
  operator := some ">"
  state := some "inf"

theorem not_forall_isExpressedBy : ¬ ∀ (c : Condition) (g : String), c.guard? = some g → c.IsExpressedBy g := by
  intro hall
  have hguard : endless.guardFor? "sensor.temp" = some "id(sensor_temp).state > inf" := by decide +kernel
  have hentity : endless.guard? = endless.guardFor? "sensor.temp" := by decide
  have hcompared : Binary64.infinite false ∈ endless.compared "sensor.temp" := by decide +kernel
  have hfinite := (guards_guardFor hguard).isExpressedBy_iff.mp (hall _ _ (hentity.trans hguard))
  exact Bool.false_ne_true (hfinite _ hcompared)

end Condition

end Dashboard

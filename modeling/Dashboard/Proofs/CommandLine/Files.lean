import Dashboard.CommandLine.Folder
import Dashboard.Proofs.Document.Comparisons
/-!
# Files in a folder

What was written into a file is read from it, under any path that leads to its place, until that place is
written again. Files with different plain names in one folder have different places, whatever the path of
the folder goes through.
-/

namespace Dashboard

open Text

namespace Text

theorem fields_append_cut (c : Char) (cs ds : List Char) :
    fields c (cs ++ c :: ds) = fields c cs ++ fields c ds := by
  induction cs with
  | nil => exact fields_cut c ds
  | cons d cs ih =>
    by_cases hd : d = c
    · subst hd
      rw [List.cons_append, fields_cut, fields_cut, ih, List.cons_append]
    · obtain ⟨f, fs, hfields, hcons⟩ := fields_cons hd cs
      obtain ⟨g, gs, hfields', hcons'⟩ := fields_cons hd (cs ++ c :: ds)
      rw [ih, hfields, List.cons_append] at hfields'
      obtain ⟨rfl, rfl⟩ := List.cons.inj hfields'
      rw [List.cons_append, hcons', hcons, List.cons_append]

end Text

namespace CommandLine

namespace Path

/-- The names that name something in a folder. -/
def IsName (n : String) : Prop := n ≠ "" ∧ n ≠ "." ∧ n ≠ ".." ∧ '/' ∉ n.toList

instance (n : String) : Decidable (IsName n) := inferInstanceAs (Decidable (_ ∧ _ ∧ _ ∧ _))

variable {folder n : String} {p : Path}

theorem toList_join (folder : String) : ∃ cs, ∀ n, (join folder n).toList = cs ++ '/' :: n.toList := by
  by_cases h : slashAtEnd folder
  · obtain ⟨cs, hcs⟩ := List.getLast?_eq_some_iff.mp (beq_iff_eq.mp h)
    refine ⟨cs, fun n => ?_⟩
    rw [join, if_pos h, String.toList_append, hcs, List.append_assoc]
    rfl
  · refine ⟨folder.toList, fun n => ?_⟩
    rw [join, if_neg h, String.toList_append, String.toList_append, List.append_assoc]
    rfl

theorem slashAtEnd_join (hn : IsName n) : slashAtEnd (join folder n) = false := by
  obtain ⟨cs, hcs⟩ := toList_join folder
  have hne : n.toList ≠ [] := by simpa using hn.1
  have hlast : (join folder n).toList.getLast? = some (n.toList.getLast hne) := by
    rw [hcs, List.getLast?_append_of_ne_nil _ (List.cons_ne_nil _ _), List.getLast?_cons_of_ne_nil hne,
      List.getLast?_eq_some_getLast hne]
  rw [slashAtEnd, hlast]
  exact beq_false_of_ne fun h => hn.2.2.2 (Option.some.inj h ▸ List.getLast_mem hne)

/-- The path of a file in a folder leads over the names of the folder to its own. -/
theorem ofText_join (folder : String) : ∃ fromRoot names, ∀ {n p}, IsName n → ofText (join folder n) = .ok p →
    p = { fromRoot, names := names ++ [n] } := by
  obtain ⟨cs, hcs⟩ := toList_join folder
  refine ⟨['/'].isPrefixOf (cs ++ ['/']), ((fields '/' cs).map String.ofList).filter (· != ""),
    fun {n p} hn hp => ?_⟩
  rw [ofText] at hp
  split at hp
  · cases hp
  split at hp
  · cases hp
  · obtain rfl := Except.ok.inj hp
    have hroot : startsWith "/" (join folder n) = ['/'].isPrefixOf (cs ++ ['/']) := by
      rw [startsWith, hcs]
      cases cs <;> simp [List.isPrefixOf]
    have hnames : ((fields '/' (join folder n).toList).map String.ofList).filter (· != "") =
        ((fields '/' cs).map String.ofList).filter (· != "") ++ [n] := by
      rw [hcs, fields_append_cut, fields_of_not_mem hn.2.2.2, List.map_append, List.filter_append]
      simp [hn.1]
    rw [hroot, hnames, slashAtEnd_join hn]

end Path

namespace Folder

variable {f f' : Folder} {path other content text : String} {place away next : Names}

theorem enter_eq_ok_iff : f.enter place = .ok () ↔ f.entry? place = some .folder := by
  rw [enter]
  split <;> simp_all

theorem entry?_eq_find? (h : f.entry? place ≠ some .folder) : f.entry? place = f.find? (key place) := by
  rw [ entry?] at h ⊢
  split
  · next hroot => exact absurd (if_pos hroot) h
  · rfl

theorem entry?_of_special (h : (place.isEmpty || place == outside) = true) : f.entry? place = some .folder := if_pos h

/-! ## Replacing what is no folder -/

theorem entry?_put_self (h : f.entry? place ≠ some .folder) (e : FolderEntry) :
    entry? (Table.put (key place) e f) place = some e := by
  have hplain : ¬(place.isEmpty || place == outside) = true := fun hs => h (entry?_of_special hs)
  rw [ entry?, if_neg hplain]
  exact Table.find?_put_self _ _ _

theorem entry?_put_of_ne (h : key away ≠ key place) (e : FolderEntry) :
    entry? (Table.put (key place) e f) away = f.entry? away := by
  rw [ entry?, entry?, Table.find?_put_of_ne e f h]

theorem entry?_put_folder (h : f.entry? place ≠ some .folder) (haway : f.entry? away = some .folder) (e : FolderEntry) :
    entry? (Table.put (key place) e f) away = some .folder := by
  by_cases hs : (away.isEmpty || away == outside) = true
  · exact entry?_of_special hs
  · have hfind : f.find? (key away) = some .folder := by rwa [ entry?, if_neg hs] at haway
    have hne : key away ≠ key place := fun hkey => h (by
      rw [entry?_eq_find? h, ← hkey, hfind])
    rw [entry?_put_of_ne hne, haway]

/-! ## Following names -/

/-- Where one name leads from a folder. -/
def toward (place : Names) (name : String) : Except FileError Names :=
  if name = "." then .ok place
  else if name = ".." then .ok (above place)
  else if Path.longestName < name.utf8ByteSize then .error .nameTooLong
  else .ok (place ++ [name])

theorem follow_cons (f : Folder) (place : Names) (name : String) (names : Names) :
    f.follow place (name :: names) =
      (f.enter place).bind fun _ => (toward place name).bind fun place => f.follow place names := by
  rw [follow, toward]
  cases f.enter place with
  | error e => rfl
  | ok u =>
    simp only [bind, Except.bind]
    split_ifs <;> rfl

theorem follow_cons_eq_ok_iff {name : String} {names : Names} : f.follow place (name :: names) = .ok next ↔
    f.entry? place = some .folder ∧ ∃ on, toward place name = .ok on ∧ f.follow on names = .ok next := by
  rw [follow_cons, ← enter_eq_ok_iff]
  cases f.enter place with
  | error e => exact ⟨nofun, nofun⟩
  | ok u =>
    cases toward place name with
    | error e => exact ⟨nofun, nofun⟩
    | ok on => exact ⟨fun h => ⟨rfl, on, rfl, h⟩, fun ⟨_, _, hon, h⟩ => Except.ok.inj hon ▸ h⟩

/-- Names lead where they led when something was put where no folder is. -/
theorem follow_put (h : f.entry? place ≠ some .folder) (e : FolderEntry) {names : Names} :
    f.follow away names = .ok next → follow (Table.put (key place) e f) away names = .ok next := by
  induction names generalizing away with
  | nil => exact id
  | cons name names ih =>
    intro hfollow
    obtain ⟨haway, on, hon, hrest⟩ := follow_cons_eq_ok_iff.mp hfollow
    exact follow_cons_eq_ok_iff.mpr ⟨entry?_put_folder h haway e, on, hon, ih hrest⟩

theorem follow_append_eq_ok {names after : Names} (h : f.follow place (names ++ after) = .ok next) :
    ∃ on, f.follow place names = .ok on ∧ f.follow on after = .ok next := by
  induction names generalizing place with
  | nil => exact ⟨place, rfl, h⟩
  | cons name names ih =>
    obtain ⟨hplace, through, hthrough, hrest⟩ := follow_cons_eq_ok_iff.mp h
    obtain ⟨on, hon, hafter⟩ := ih hrest
    exact ⟨on, follow_cons_eq_ok_iff.mpr ⟨hplace, through, hthrough, hon⟩, hafter⟩

theorem follow_name {n : String} (hn : Path.IsName n) (h : f.follow place [n] = .ok next) : next = place ++ [n] := by
  obtain ⟨-, on, hon, hnext⟩ := follow_cons_eq_ok_iff.mp h
  obtain rfl := Except.ok.inj hnext
  rw [toward, if_neg hn.2.1, if_neg hn.2.2.1] at hon
  split at hon
  · cases hon
  · exact (Except.ok.inj hon).symm

/-! ## Places of files -/

/-- The path of a file leads to a place. -/
def Leads (f : Folder) (path : String) (place : Names) : Prop :=
  ∃ p, Path.ofText path = .ok p ∧ p.endsInSlash = false ∧ f.follow (start p) p.names = .ok place

theorem Leads.put (h : f.entry? place ≠ some .folder) (e : FolderEntry) (hp : Leads f path away) :
    Leads (Table.put (key place) e f) path away :=
  hp.imp fun _ ⟨hp, hslash, haway⟩ => ⟨hp, hslash, follow_put h e haway⟩

theorem read_eq_ok_iff :
    f.read path = .ok content ↔ ∃ place, Leads f path place ∧ f.entry? place = some (.file content) := by
  constructor
  · intro h
    rw [read] at h
    cases hp : Path.ofText path with
    | error e => rw [hp] at h; cases h
    | ok p =>
      cases hplace : f.follow (start p) p.names with
      | error e => simp only [hp, hplace, bind, Except.bind] at h; cases h
      | ok place =>
        simp only [hp, hplace, bind, Except.bind] at h
        split at h
        · next written hentry =>
          split at h
          · cases h
          · next hslash =>
            obtain rfl := Except.ok.inj h
            exact ⟨place, ⟨p, hp, Bool.eq_false_iff.mpr hslash, hplace⟩, hentry⟩
        · cases h
        · cases h
  · rintro ⟨place, ⟨p, hp, hslash, hplace⟩, hentry⟩
    simp only [read, hp, hplace, bind, Except.bind, hentry, hslash, Bool.false_eq_true, if_false]

theorem write_eq_ok_iff : f.write path content = .ok f' ↔
    ∃ place, Leads f path place ∧ f.entry? place ≠ some .folder ∧ f' = Table.put (key place) (.file content) f := by
  constructor
  · intro h
    rw [write] at h
    cases hp : Path.ofText path with
    | error e => rw [hp] at h; cases h
    | ok p =>
      simp only [hp, bind, Except.bind] at h
      split at h
      · split at h
        · cases h
        split at h
        · cases h
        · cases h
      · next hslash =>
        cases hplace : f.follow (start p) p.names with
        | error e => simp only [hplace] at h; cases h
        | ok place =>
          simp only [hplace] at h
          split at h
          · cases h
          · next hentry =>
            obtain rfl := Except.ok.inj h
            exact ⟨place, ⟨p, hp, Bool.eq_false_iff.mpr hslash, hplace⟩, hentry, rfl⟩
  · rintro ⟨place, ⟨p, hp, hslash, hplace⟩, hentry, rfl⟩
    simp only [write, hp, hplace, bind, Except.bind, hslash, Bool.false_eq_true, if_false, if_neg hentry]

/-- What was written is what is read. -/
theorem read_write_self (h : f.write path content = .ok f') : f'.read path = .ok content := by
  obtain ⟨place, hplace, hentry, rfl⟩ := write_eq_ok_iff.mp h
  exact read_eq_ok_iff.mpr ⟨place, hplace.put hentry _, entry?_put_self hentry _⟩

/-- A write changes nothing of what is read from other places. -/
theorem read_write_of_ne (h : f.write path content = .ok f') (hother : f.read other = .ok text)
    (hne : ∀ {p q}, Leads f path p → Leads f other q → key q ≠ key p) : f'.read other = .ok text := by
  obtain ⟨place, hplace, hentry, rfl⟩ := write_eq_ok_iff.mp h
  obtain ⟨away, haway, htext⟩ := read_eq_ok_iff.mp hother
  refine read_eq_ok_iff.mpr ⟨away, haway.put hentry _, ?_⟩
  rw [entry?_put_of_ne (hne hplace haway), htext]

/-! ## Files in one folder -/

theorem key_append (place : Names) : ∃ front, ∀ n, key (place ++ [n]) = front ++ n := by
  induction place with
  | nil => exact ⟨"", fun n => by simp [key, joined]⟩
  | cons name place ih =>
    obtain ⟨front, hfront⟩ := ih
    refine ⟨name ++ "/" ++ front, fun n => ?_⟩
    have hne : place ++ [n] ≠ [] := List.append_ne_nil_of_right_ne_nil place (List.cons_ne_nil n [])
    obtain ⟨next, names, hnames⟩ := List.exists_cons_of_ne_nil hne
    rw [List.cons_append, key, joined, hnames, String.intercalate_cons_cons, ← hnames, ← joined, ← key, hfront,
      String.append_assoc, String.append_assoc, String.append_assoc]

variable {folder n m : String}

theorem key_ne_of_leads_join (hn : Path.IsName n) (hm : Path.IsName m) (hne : n ≠ m)
    (hplace : Leads f (Path.join folder n) place) (haway : Leads f (Path.join folder m) away) :
    key place ≠ key away := by
  obtain ⟨fromRoot, names, hjoin⟩ := Path.ofText_join folder
  obtain ⟨p, hp, -, hplace⟩ := hplace
  obtain ⟨q, hq, -, haway⟩ := haway
  obtain rfl := hjoin hn hp
  obtain rfl := hjoin hm hq
  -- Both paths go through one folder first.
  obtain ⟨around, haround, hplace⟩ := follow_append_eq_ok hplace
  obtain ⟨around', haround', haway⟩ := follow_append_eq_ok haway
  obtain rfl : around = around' := Except.ok.inj (haround.symm.trans haround')
  obtain ⟨front, hfront⟩ := key_append around
  rw [follow_name hn hplace, follow_name hm haway, hfront, hfront]
  exact fun h => hne (String.append_right_inj front |>.mp h)

/-- A write into a folder changes none of the folder's other files. -/
theorem read_write_join (hn : Path.IsName n) (hm : Path.IsName m) (hne : n ≠ m)
    (h : f.write (Path.join folder n) content = .ok f') (hm' : f.read (Path.join folder m) = .ok text) :
    f'.read (Path.join folder m) = .ok text :=
  read_write_of_ne h hm' fun hp hq => (key_ne_of_leads_join hn hm hne hp hq).symm

end Folder

end CommandLine

end Dashboard

import Dashboard.Proofs.Layout.Saved
/-!
# Loaded layouts are in stored form

What a text gives to a bag is in key order, with whole numbers of at most 64 bits, and as deep as the text
can be at that place. Level by level this is said of a bag, a widget, a page and the layout.
-/

namespace Dashboard

open Json Number

/-- The numbers of a part of a text are in range. -/
def Json.Source.inRangeAt (_ : String) (s : Source) : Prop := s.AllNumbers InRange

open Json.Source (inRangeAt)

namespace Bag

variable {room : Nat}

theorem isStored_nil : Bag.IsStored room [] where
  sorted := .nil
  fits := fun _ he => absurd he List.not_mem_nil
  inRange := fun _ he => absurd he List.not_mem_nil

theorem isStored_ofList {fs : List (String × Json)} (h : ∀ e ∈ fs, e.2.Fits room ∧ e.2.AllNumbers InRange) :
    Bag.IsStored room (Table.ofList fs) where
  sorted := Table.sorted_ofList fs
  fits := fun e he => (h e (Table.mem_ofList he)).1
  inRange := fun e he => (h e (Table.mem_ofList he)).2

theorem isStored_of_decoded {s : Source} {b : Bag} (hs : s.AllNumbers InRange)
    (h : Decoder.bag (.text (room + 2)) s = .ok b) : b.IsStored (room + 1) := by
  obtain ⟨hsorted, hvalues⟩ := Decoder.sorted_of_bag rfl hs h
  exact ⟨hsorted, fun e he => (hvalues e he).2 _ rfl, fun e he => (hvalues e he).1⟩

end Bag

namespace Widget

theorem record_takes : Widget.record.Takes (.text 123) inRangeAt
    fun widget => ∀ condition, (widget condition).props.IsStored 122 := by
  refine (((((((((Record.Takes.map ?_ .any).seq .any).seq .any).seq .any).seq .any).seq .any).seq .any).seq
    .any).seq .any).seq (.withDefault Bag.isStored_nil fun _ _ => Bag.isStored_of_decoded)
  intro id _ kind _ x _ y _ width _ height _ title _ entityId _ secondEntityId _ props hprops condition
  exact hprops

theorem isStored_of_decoded {s : Source} {w : Widget} (hs : s.AllNumbers InRange)
    (h : Widget.decoder (.text 124) s = .ok w) : w.props.IsStored 122 := by
  obtain ⟨⟨widget, rest⟩, hread, hrest⟩ := exists_of_bind h
  obtain ⟨condition, -, hw⟩ := exists_of_bind hrest
  cases hw
  exact (record_takes.readOpen rfl hs hread).1 condition

end Widget

namespace Page

theorem record_takes : Page.record.Takes (.text 125) inRangeAt (Page.IsStored 122) := by
  have hwidgets : (Record.withDefault "widgets" (.list Widget.decoder) []).Takes (.text 125) inRangeAt
      fun widgets => ∀ w ∈ widgets, w.props.IsStored 122 := by
    refine .withDefault (fun w hw => absurd hw List.not_mem_nil) fun source widgets hs h w hw => ?_
    obtain ⟨item, hitem, hdecoded⟩ := Decoder.exists_of_list rfl hs h w hw
    exact Widget.isStored_of_decoded hitem hdecoded
  refine (((Record.Takes.map ?_ .any).seq .any).seq .any).seq hwidgets
  intro id _ name _ refreshSeconds _ widgets hstored
  exact hstored

theorem isStored_of_decoded {s : Source} {p : Page} (hs : s.AllNumbers InRange)
    (h : Page.decoder (.text 126) s = .ok p) : p.IsStored 122 := record_takes.read rfl hs h

end Page

namespace Settings

theorem record_takes : Settings.record.Takes (.text 126) inRangeAt fun settings => ∀ extra,
    (settings extra).extra = extra := (Record.Takes.map (fun _ _ _ _ _ => rfl) .any).seq .any

theorem isStored_of_decoded {s : Source} {settings : Settings} (hs : s.AllNumbers InRange)
    (h : Settings.decoder (.text 127) s = .ok settings) : settings.IsStored := by
  obtain ⟨⟨known, rest⟩, hread, hsettings⟩ := exists_of_bind h
  cases hsettings
  obtain ⟨hknown, hrest⟩ := record_takes.readOpen rfl hs hread
  refine ⟨?_, ?_⟩ <;> rw [hknown]
  · exact Bag.isStored_ofList fun e he => ⟨(hrest e he).2.2 126 rfl, (hrest e he).2.1⟩
  · exact fun e he => (hrest e (Table.mem_ofList he)).1

end Settings

namespace Layout

theorem record_takes : Layout.record.Takes (.text 127) inRangeAt Layout.IsStored := by
  have hsettings : (Record.withDefault "settings" Settings.decoder {}).Takes (.text 127) inRangeAt
      Settings.IsStored :=
    .withDefault ⟨Bag.isStored_nil, fun _ he => absurd he List.not_mem_nil⟩ fun _ _ =>
      Settings.isStored_of_decoded
  have hpages : (Record.withDefault "pages" (.list Page.decoder) []).Takes (.text 127) inRangeAt
      fun pages => ∀ p ∈ pages, p.IsStored 122 := by
    refine .withDefault (fun p hp => absurd hp List.not_mem_nil) fun source pages hs h p hp => ?_
    obtain ⟨item, hitem, hdecoded⟩ := Decoder.exists_of_list rfl hs h p hp
    exact Page.isStored_of_decoded hitem hdecoded
  refine (Record.Takes.map ?_ hsettings).seq hpages
  exact fun settings hsettings pages hpages => ⟨hsettings, hpages⟩

theorem isStored_of_load {text : String} {l : Layout} (h : load text = .ok l) : l.IsStored := by
  rw [load] at h
  split at h
  · next _ hdecoded =>
    cases h
    exact record_takes.read rfl (Source.allNumbers_ofText text) (ofText_eq_ok.mp hdecoded).1
  · cases h

end Layout

end Dashboard

import Chiptune.Proofs.Files
import Chiptune.Proofs.Json
import Chiptune.Session

/-!
# `Chiptune.Proofs.SettingsText`: settings come back from the text they are kept as

The text names its fields, so it need not hold all of them, nor in order; a field that is left out
keeps its default. That is what the statements are about: `Settings.textOf` is the text of some
fields, and `Settings.overlay` the settings with some fields taken from others.

* `Settings.readField_valueText`: the value of a field, read into any settings, takes that field
  from the settings it was written from.
* `Settings.readFields_listed`: the fields of a list are read one by one up to the brace that ends
  the object. It is an induction on the list; what is kept is that the fields seen so far are not
  among those to come.
* `Settings.validate_of_ofText`: whatever text settings are read from, they are valid.

`Settings.saved_settings_read_back` is the main statement.
-/

set_option autoImplicit false

namespace Chiptune.Settings

open Chiptune.Json (Fault Read StopsNumber)

variable {f : Field} {fs seen : List Field} {rest : List Char} {s t : Settings}

/-! ### Some fields of settings -/

/-- Settings with the fields of a list taken from others. -/
def overlay (t s : Settings) (fs : List Field) : Settings where
  sampleRate := if .sampleRate ∈ fs then s.sampleRate else t.sampleRate
  stereo := if .stereo ∈ fs then s.stereo else t.stereo
  filters := if .filters ∈ fs then s.filters else t.filters
  commandQueueCapacity :=
    if .commandQueueCapacity ∈ fs then s.commandQueueCapacity else t.commandQueueCapacity
  dacBufferCapacity :=
    if .dacBufferCapacity ∈ fs then s.dacBufferCapacity else t.dacBufferCapacity
  dacPrefillSamples :=
    if .dacPrefillSamples ∈ fs then s.dacPrefillSamples else t.dacPrefillSamples
  audioMemoryBlocks :=
    if .audioMemoryBlocks ∈ fs then s.audioMemoryBlocks else t.audioMemoryBlocks

theorem overlay_all (t s : Settings) : t.overlay s Field.all = s := rfl

theorem overlay_cons (t s : Settings) (f : Field) (fs : List Field) :
    t.overlay s (f :: fs) = (t.overlay s [f]).overlay s fs := by
  cases f
  all_goals simp [overlay]

/-- The text of some fields. -/
def textOf (s : Settings) (fs : List Field) : String :=
  String.ofList ('\x7b' :: fieldsText s fs ++ ['\n', '\x7d'])

theorem textOf_all (s : Settings) : s.textOf Field.all = s.print := rfl

/-! ### Names and values -/

theorem Field.ofName?_name (f : Field) : Field.ofName? f.name.toList = some f := by
  cases f
  all_goals decide

theorem Field.plain_name (f : Field) : ∀ c ∈ f.name.toList, Json.Plain c := by
  have hall : f.name.toList.all (fun c => decide (Json.Plain c)) = true := by
    cases f
    all_goals rfl
  simpa only [List.all_eq_true, decide_eq_true_eq] using hall

theorem readWord32_digits (n : UInt32) (h : StopsNumber rest) :
    readWord32 (natText n.toNat ++ rest) = .ok (n, rest) := by
  have hn : n.toNat ≤ UInt32.size - 1 := Nat.le_sub_one_of_lt n.toNat_lt
  have hread := Json.readNat_digits "u32" (by decide) hn h
  rw [readWord32, natText, hread]
  simp [bind, Except.bind, pure, Except.pure]

theorem readWord64_digits (n : UInt64) (h : StopsNumber rest) :
    readWord64 (natText n.toNat ++ rest) = .ok (n, rest) := by
  have hn : n.toNat ≤ UInt64.size - 1 := Nat.le_sub_one_of_lt n.toNat_lt
  have hread := Json.readNat_digits "usize" (by decide) hn h
  rw [readWord64, natText, hread]
  simp [bind, Except.bind, pure, Except.pure]

/-- The blank in front of a value is skipped. -/
theorem readField_blank (f : Field) (t : Settings) (cs : List Char) :
    readField f t (' ' :: cs) = readField f t cs := by
  cases f
  all_goals rfl

/-- Only a number needs what follows to stop it. -/
theorem readField_valueText (f : Field) (t s : Settings) (h : StopsNumber rest) :
    readField f t (valueText s f ++ rest) = .ok (t.overlay s [f], rest) := by
  cases f with
  | stereo | filters =>
    simp only [valueText, boolText, readField, Json.readBool_word]
    rfl
  | sampleRate =>
    simp only [valueText, readField, readWord32_digits _ h]
    rfl
  | _ =>
    simp only [valueText, readField, readWord64_digits _ h]
    rfl

/-! ### A list of fields -/

/-- What stands in front of a field. -/
def separator (first : Bool) : List Char := if first then [] else [',']

/-- Fields of a list, the first of them maybe behind others. -/
def listed (s : Settings) : Bool → List Field → List Char
  | _, [] => []
  | first, f :: fs => separator first ++ fieldText s f ++ listed s false fs

theorem fieldsText_cons (s : Settings) (f : Field) (fs : List Field) :
    fieldsText s (f :: fs) = fieldText s f ++ listed s false fs := by
  induction fs generalizing f with
  | nil => simp [fieldsText, listed]
  | cons g fs ih =>
    rw [fieldsText, ih g]
    · simp [listed, separator]
    · simp

theorem fieldsText_eq (s : Settings) (fs : List Field) : fieldsText s fs = listed s true fs := by
  cases fs with
  | nil => rfl
  | cons f fs =>
    rw [fieldsText_cons]
    rfl

theorem length_le_listed (s : Settings) (first : Bool) (fs : List Field) :
    fs.length ≤ (listed s first fs).length := by
  induction fs generalizing first with
  | nil => exact Nat.le_refl _
  | cons f fs ih =>
    have hrest := ih false
    simp only [listed, fieldText, List.length_append, List.length_cons, String.length_toList]
    have hquote : "\n  \"".length = 4 := rfl
    omega

/-- The end of the object, on a line of its own. -/
def close : List Char := ['\n', '\x7d']

/-- Behind a value comes a comma or the end of the line. -/
theorem stopsNumber_listed (s : Settings) (fs : List Field) :
    StopsNumber (listed s false fs ++ close) := by
  cases fs with
  | nil =>
    intro c hc
    obtain rfl : '\n' = c := Option.some.inj hc
    decide
  | cons f fs =>
    intro c hc
    obtain rfl : ',' = c := Option.some.inj hc
    decide

/-- The next field is read: its name is known and new, and its value is taken over. -/
theorem readFields_fieldText (fuel : Nat) (first : Bool) (t s : Settings) (hnew : f ∉ seen)
    (h : StopsNumber rest) :
    readFields (fuel + 1) first seen t (separator first ++ fieldText s f ++ rest)
      = readFields fuel false (f :: seen) (t.overlay s [f]) rest := by
  -- What stands behind the colon.
  let value := ' ' :: (valueText s f ++ rest)
  have htext : separator first ++ fieldText s f ++ rest
      = separator first ++ "\n  \"".toList ++ (f.name.toList ++ '"' :: ':' :: value) := by
    simp [fieldText, value]
  have hnext : nextName first (separator first ++ "\n  \"".toList ++
        (f.name.toList ++ '"' :: ':' :: value))
      = .ok (some (f.name.toList ++ '"' :: ':' :: value)) := by
    cases first with
    | true => rfl
    | false => rfl
  have hname : Json.readText (f.name.toList ++ '"' :: ':' :: value)
      = .ok (f.name.toList, ':' :: value) := Json.readText_plain f.plain_name
  have hcolon : Json.skipColon (':' :: value) = .ok value := rfl
  have hvalue : readField f t value = .ok (t.overlay s [f], rest) := by
    rw [readField_blank, readField_valueText f t s h]
  have hseen : seen.contains f = false := by simpa using hnew
  rw [htext, readFields, hnext]
  simp only [bind, Except.bind, hname, f.ofName?_name, hseen, hcolon, hvalue,
    Bool.false_eq_true, if_false]

theorem readFields_listed (s : Settings) (hnodup : fs.Nodup) (hnew : ∀ f ∈ fs, f ∉ seen)
    {fuel : Nat} (hfuel : fs.length ≤ fuel) (first : Bool) (t : Settings) :
    readFields fuel first seen t (listed s first fs ++ close) = .ok (t.overlay s fs, close) := by
  induction fs generalizing fuel first seen t with
  | nil =>
    cases fuel with
    | zero => rfl
    | succ fuel =>
      cases first with
      | true => rfl
      | false => rfl
  | cons f fs ih =>
    obtain ⟨fuel, rfl⟩ : ∃ n, fuel = n + 1 := ⟨fuel - 1, by simp at hfuel; omega⟩
    obtain ⟨hfirst, hrest⟩ := List.nodup_cons.mp hnodup
    obtain ⟨hunseen, hlater⟩ := List.forall_mem_cons.mp hnew
    -- The field that has been read is not among those to come.
    have hnext : ∀ g ∈ fs, g ∉ f :: seen := by
      intro g hg hmem
      obtain rfl | hmem := List.mem_cons.mp hmem
      · exact hfirst hg
      · exact hlater g hg hmem
    have htext : listed s first (f :: fs) ++ close
        = separator first ++ fieldText s f ++ (listed s false fs ++ close) := by
      simp [listed]
    rw [htext, readFields_fieldText fuel first t s hunseen (stopsNumber_listed s fs),
      ih hrest hnext (Nat.le_of_succ_le_succ hfuel), ← overlay_cons]

/-- The text of some fields is read to its end, and gives them over the defaults. -/
theorem readWhole_textOf (s : Settings) (hnodup : fs.Nodup) :
    readWhole (s.textOf fs).toList = .ok (({} : Settings).overlay s fs) := by
  have htext : (s.textOf fs).toList = '\x7b' :: (listed s true fs ++ close) := by
    rw [textOf, String.toList_ofList, fieldsText_eq]
    rfl
  have hfuel : fs.length ≤ (listed s true fs ++ close).length := by
    rw [List.length_append]
    exact Nat.le_trans (length_le_listed s true fs) (Nat.le_add_right _ _)
  have hnew : ∀ f ∈ fs, f ∉ ([] : List Field) := by simp
  have hfields := readFields_listed s hnodup hnew hfuel true {}
  have hvalue : readValue ('\x7b' :: (listed s true fs ++ close))
      = .ok (({} : Settings).overlay s fs, []) := by
    show (readFields _ true [] {} (listed s true fs ++ close) >>= _) = _
    rw [hfields]
    rfl
  rw [htext, readWhole, hvalue]
  rfl

/-! ### Checked settings -/

/-- What well-formed text of settings is read as: the settings, if they are valid. -/
def checked (s : Settings) : Except TextFault Settings :=
  match s.validate with
  | .ok () => .ok s
  | .error fault => .error (.refused fault)

theorem checked_of_valid (h : s.fault? = none) : s.checked = .ok s := by
  rw [checked, validate, h]

theorem checked_of_fault {fault : SettingsFault} (h : s.fault? = some fault) :
    s.checked = .error (.refused fault) := by
  rw [checked, validate, h]

theorem ofText_of_readWhole {text : String} (h : readWhole text.toList = .ok s) :
    ofText text = s.checked := by
  rw [ofText, h]
  cases hfault : s.fault? with
  | none => simp only [hfault, checked_of_valid hfault]
  | some fault => simp only [hfault, checked_of_fault hfault]

theorem ofText_textOf (s : Settings) (hnodup : fs.Nodup) :
    ofText (s.textOf fs) = (({} : Settings).overlay s fs).checked :=
  ofText_of_readWhole (readWhole_textOf s hnodup)

theorem ofText_print (s : Settings) : ofText s.print = s.checked := by
  have hnodup : Field.all.Nodup := by decide
  rw [← textOf_all, ofText_textOf s hnodup, overlay_all]

theorem validate_of_ofText {text : String} (h : ofText text = .ok s) : s.validate = .ok () := by
  unfold ofText at h
  split at h
  · nomatch h
  · split at h
    · nomatch h
    · next hfault =>
      obtain rfl := Except.ok.inj h
      rw [validate, hfault]

theorem load_of_save {files written : Files} {path : String} (h : s.save files path = .ok written) :
    load written path = ofFile path (.ok s.print) := by
  have hwrite : files.writeText path s.print = .ok written := by
    unfold save at h
    split at h
    · next hwritten => rw [hwritten, Except.ok.inj h]
    · nomatch h
  rw [load, Files.readText_writeText hwrite]

/-- Settings come back from the text that they are kept as, if they are valid.

* The text of settings is read as these settings, or refused for their first fault.
* The text need not hold every field, nor hold them in order. The fields that it leaves out keep
  their defaults, and what is checked is the two together.
* Nothing else is ever read from a text than settings that are valid.
* Settings that were stored under a path are loaded from it. If they are not valid, loading them
  fails with the path and their first fault.

That a field is left out can break the settings as much as a field that is there: a short queue of
samples is refused if the silence in front of it is left at its default. -/
theorem saved_settings_read_back :
    (∀ s : Settings, ofText s.print = s.checked) ∧
    (∀ (s : Settings) (fs : List Field), fs.Nodup →
      ofText (s.textOf fs) = (({} : Settings).overlay s fs).checked) ∧
    (∀ (text : String) (s : Settings), ofText text = .ok s → s.validate = .ok ()) ∧
    ∀ (s : Settings) (files written : Files) (path : String),
      s.save files path = .ok written →
        (s.validate = .ok () → load written path = .ok (s, .settingsLoaded path)) ∧
        ∀ fault, s.validate = .error fault →
          load written path = .error (.invalid path (.refused fault)) := by
  refine ⟨ofText_print, ?_, ?_, ?_⟩
  · intro s fs hnodup
    exact ofText_textOf s hnodup
  · intro text s h
    exact validate_of_ofText h
  · intro s files written path h
    rw [load_of_save h, ofFile, ofText_print, checked]
    constructor
    · intro hvalid
      rw [hvalid]
    · intro fault hfault
      rw [hfault]

/-- A path of one name without a slash. -/
theorem ofText_singleName : Files.Path.ofText "s" = .ok ⟨["s"], false, false⟩ := by
  have hnames : "s".splitOn "/" = ["s"] := by
    rw [String.splitOn, if_neg (by decide), String.splitOnAux, if_neg (by decide),
      if_neg (by decide), String.splitOnAux, if_pos (by decide)]
    decide
  have hsize : "s".utf8ByteSize = 1 := by decide
  simp [Files.Path.ofText, Files.maxPath, hnames, hsize]

/-- Settings that differ from the defaults are stored and loaded. A queue of 256 samples is valid
next to 100 samples of silence, but not if the silence is left out. -/
theorem short_queue_needs_its_prefill :
    let s : Settings := { stereo := false, dacBufferCapacity := 256, dacPrefillSamples := 100 }
    (∃ written, s.save {} "s" = .ok written ∧ load written "s" = .ok (s, .settingsLoaded "s")) ∧
    ofText (s.textOf [.dacPrefillSamples, .dacBufferCapacity])
      = .ok { dacBufferCapacity := 256, dacPrefillSamples := 100 } ∧
    ofText (s.textOf [.dacBufferCapacity]) = .error (.refused (.prefillTooLong 512 256)) ∧
    ({ dacBufferCapacity := 256, dacPrefillSamples := 100 } : Settings).validate = .ok () := by
  intro s
  obtain ⟨-, hpart, hvalid, hstored⟩ := saved_settings_read_back
  have hsave : ∃ written, s.save {} "s" = .ok written := by
    rw [save, Files.writeText, ofText_singleName]
    exact ⟨_, rfl⟩
  obtain ⟨written, hwritten⟩ := hsave
  have hboth : ofText (s.textOf [.dacPrefillSamples, .dacBufferCapacity])
      = .ok { dacBufferCapacity := 256, dacPrefillSamples := 100 } :=
    (hpart s _ (by decide)).trans (checked_of_valid (by decide))
  have hone : ofText (s.textOf [.dacBufferCapacity])
      = .error (.refused (.prefillTooLong 512 256)) :=
    (hpart s _ (by decide)).trans (checked_of_fault (by decide))
  have hvalidated : s.validate = .ok () := by
    have hfault : s.fault? = none := by decide
    rw [validate, hfault]
  exact ⟨⟨written, hwritten, (hstored s {} written "s" hwritten).1 hvalidated⟩, hboth, hone,
    hvalid _ _ hboth⟩

end Chiptune.Settings

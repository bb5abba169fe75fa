import Mathlib.Logic.Relation
import SqlSelect.Declaration.Definition
import SqlSelect.Error

/-!
# Options of a declaration

Options are read one after another, and what is read later is laid over what is there.  So a
list of options is refused if one of them is, and otherwise comes to what is given last for
each name, and to the flags that are given anywhere, however the options are spread over
attributes.
-/

namespace SqlSelect

/-! ## Laying options over options -/

section Overlays

variable {Options Item : Type}

/-- Items are read into options: a refused item is an error, and any other item lays what it
gives over the options that are there. -/
structure Overlays (add : Options → Item → Except DeclarationError Options)
    (merge : Options → Options → Options) (given : List Item → Options)
    (Refused : Item → DeclarationError → Prop) : Prop where
  nil : ∀ options, merge options (given []) = options
  append : ∀ options left right,
    merge options (given (left ++ right)) = merge (merge options (given left)) (given right)
  /-- To give the same again changes nothing. -/
  again : ∀ options items,
    merge (merge options (given items)) (given items) = merge options (given items)
  refused : ∀ options item error, add options item = .error error → Refused item error
  fails : ∀ options item error, Refused item error → ∀ result, add options item ≠ .ok result
  adds : ∀ options item result, add options item = .ok result →
    result = merge options (given [item])

variable {add : Options → Item → Except DeclarationError Options}
  {merge : Options → Options → Options} {given : List Item → Options}
  {Refused : Item → DeclarationError → Prop}

namespace Overlays

theorem add_eq_ok_iff (overlays : Overlays add merge given Refused) {item : Item}
    {options result : Options} :
    add options item = .ok result ↔
      (∀ error, ¬ Refused item error) ∧ result = merge options (given [item]) := by
  constructor
  · intro reads
    exact ⟨fun error refused => overlays.fails _ _ _ refused _ reads, overlays.adds _ _ _ reads⟩
  · rintro ⟨fine, rfl⟩
    cases reads : add options item with
    | error error => exact (fine error (overlays.refused _ _ _ reads)).elim
    | ok result => rw [overlays.adds _ _ _ reads]

theorem foldlM_eq_ok_iff (overlays : Overlays add merge given Refused) {items : List Item}
    {options result : Options} :
    items.foldlM add options = .ok result ↔
      (∀ item ∈ items, ∀ error, ¬ Refused item error) ∧ result = merge options (given items) := by
  induction items generalizing options with
  | nil =>
      rw [List.foldlM_nil, except_pure_ok, overlays.nil]
      simp [eq_comm]
  | cons item rest ih =>
      have first := overlays.append options [item] rest
      rw [List.singleton_append] at first
      simp only [List.foldlM_cons, except_bind_ok, overlays.add_eq_ok_iff, ih, first,
        List.forall_mem_cons]
      constructor
      · rintro ⟨_, ⟨head, rfl⟩, tail, same⟩
        exact ⟨⟨head, tail⟩, same⟩
      · rintro ⟨⟨head, tail⟩, same⟩
        exact ⟨_, ⟨head, rfl⟩, tail, same⟩

/-- The error is that of an item. -/
theorem refused_of_foldlM (overlays : Overlays add merge given Refused) {items : List Item}
    {options : Options} {error : DeclarationError}
    (fails : items.foldlM add options = .error error) : ∃ item ∈ items, Refused item error := by
  induction items generalizing options with
  | nil => cases fails
  | cons item rest ih =>
      rw [List.foldlM_cons] at fails
      rcases except_bind_error.mp fails with first | ⟨_, _, behind⟩
      · exact ⟨item, List.mem_cons_self, overlays.refused _ _ _ first⟩
      · obtain ⟨other, member, refused⟩ := ih behind
        exact ⟨other, List.mem_cons_of_mem _ member, refused⟩

end Overlays

end Overlays

/-! ## Single options -/

namespace Setting

/-- The text that an option gives for a key. -/
def textFor? (key : String) (setting : Setting) : Option String :=
  match setting.value with
  | some (.text value) => if setting.key = key then some value else none
  | some (.number _) | none => none

/-- The last text that is given for a key. -/
def lastText? (key : String) (settings : List Setting) : Option String :=
  (settings.filterMap (textFor? key)).getLast?

/-- Some option has the key. -/
def mentioned (key : String) (settings : List Setting) : Bool :=
  settings.any (·.key == key)

/-- An option has no text where it needs one. -/
inductive Textless (setting : Setting) : DeclarationError → Prop where
  | missing : setting.value = none → Textless setting .missingValue
  | number {value : Int} : setting.value = some (.number value) → Textless setting .notText

/-- No option of a table. -/
inductive RefusedByTable (setting : Setting) : DeclarationError → Prop where
  | unknown :
      setting.key ≠ "name" → setting.key ≠ "schema" → RefusedByTable setting .unknownTableOption
  | textless {error : DeclarationError} :
      setting.key = "name" ∨ setting.key = "schema" → setting.Textless error →
      RefusedByTable setting error

/-- No option of a column. -/
inductive RefusedByColumn (setting : Setting) : DeclarationError → Prop where
  | unknown :
      setting.key ≠ "name" → setting.key ≠ "primary_key" → setting.key ≠ "nullable" →
      RefusedByColumn setting .unknownColumnOption
  | textless {error : DeclarationError} :
      setting.key = "name" → setting.Textless error → RefusedByColumn setting error
  | valued :
      setting.key = "primary_key" ∨ setting.key = "nullable" → setting.value ≠ none →
      RefusedByColumn setting .flagWithValue

variable {setting : Setting}

theorem text_eq_error_iff {error : DeclarationError} :
    setting.text = .error error ↔ setting.Textless error := by
  constructor
  · intro fails
    rw [text] at fails
    split at fails <;> cases fails
    · exact .number ‹_›
    · exact .missing ‹_›
  · rintro (missing | number)
    · rw [text, missing]
    · rw [text, number]

theorem text_eq_ok_iff {value : String} :
    setting.text = .ok value ↔ setting.textFor? setting.key = some value := by
  rw [text, textFor?]
  split <;> simp_all

theorem textFor?_of_ne {key : String} (other : setting.key ≠ key) :
    setting.textFor? key = none := by
  rw [textFor?]
  split
  · exact if_neg other
  · rfl
  · rfl

theorem flag_eq_error_iff {error : DeclarationError} :
    setting.flag = .error error ↔ setting.value ≠ none ∧ error = .flagWithValue := by
  rw [flag]
  split <;> simp_all [eq_comm]

theorem lastText?_append (key : String) (left right : List Setting) :
    lastText? key (left ++ right) = (lastText? key right).or (lastText? key left) := by
  rw [lastText?, List.filterMap_append, List.getLast?_append]
  rfl

theorem mentioned_append (key : String) (left right : List Setting) :
    mentioned key (left ++ right) = (mentioned key left || mentioned key right) :=
  List.any_append

theorem mentioned_singleton (key : String) (setting : Setting) :
    mentioned key [setting] = (setting.key == key) := by
  rw [mentioned, List.any_cons, List.any_nil, Bool.or_false]

theorem lastText?_singleton (key : String) (setting : Setting) :
    lastText? key [setting] = setting.textFor? key := by
  rw [lastText?]
  cases given : setting.textFor? key with
  | none => simp [given]
  | some value => simp [given]

end Setting

/-! ## Options of a table -/

namespace TableOptions

/-- Lay options over others. -/
def merge (earlier later : TableOptions) : TableOptions :=
  ⟨later.name.or earlier.name, later.schema.or earlier.schema⟩

/-- What options of a table come to. -/
def given (settings : List Setting) : TableOptions :=
  ⟨Setting.lastText? "name" settings, Setting.lastText? "schema" settings⟩

variable {options result : TableOptions} {setting : Setting} {error : DeclarationError}

theorem refused_of_add (fails : add options setting = .error error) :
    setting.RefusedByTable error := by
  rw [add] at fails
  split at fails
  case isTrue named =>
    rcases except_bind_error.mp fails with text | ⟨_, _, ⟨⟩⟩
    exact .textless (.inl named) (Setting.text_eq_error_iff.mp text)
  case isFalse unnamed =>
    split at fails
    case isTrue placed =>
      rcases except_bind_error.mp fails with text | ⟨_, _, ⟨⟩⟩
      exact .textless (.inr placed) (Setting.text_eq_error_iff.mp text)
    case isFalse unplaced =>
      cases fails
      exact .unknown unnamed unplaced

theorem add_of_refused (refused : setting.RefusedByTable error) :
    add options setting = .error error := by
  rw [add]
  cases refused with
  | unknown unnamed unplaced => rw [if_neg unnamed, if_neg unplaced]
  | textless known textless =>
      rw [Setting.text_eq_error_iff.mpr textless]
      rcases known with named | placed
      · rw [if_pos named]
        rfl
      · rw [if_neg (by simp [placed]), if_pos placed]
        rfl

theorem eq_merge_of_add (adds : add options setting = .ok result) :
    result = options.merge (given [setting]) := by
  rw [merge, given, Setting.lastText?_singleton, Setting.lastText?_singleton]
  rw [add] at adds
  split at adds
  case isTrue named =>
    obtain ⟨value, text, ⟨⟩⟩ := except_bind_ok.mp adds
    rw [Setting.text_eq_ok_iff, named] at text
    rw [text, Setting.textFor?_of_ne (by simp [named])]
    rfl
  case isFalse unnamed =>
    split at adds
    case isTrue placed =>
      obtain ⟨value, text, ⟨⟩⟩ := except_bind_ok.mp adds
      rw [Setting.text_eq_ok_iff, placed] at text
      rw [text, Setting.textFor?_of_ne unnamed]
      rfl
    case isFalse unplaced => cases adds

theorem overlays_add : Overlays add merge given Setting.RefusedByTable := by
  constructor
  case nil => exact fun _ => rfl
  case append =>
    intro options left right
    simp only [merge, given, Setting.lastText?_append, Option.or_assoc]
  case again =>
    intro options settings
    simp only [merge, ← Option.or_assoc, Option.or_self]
  case refused => exact fun _ _ _ => refused_of_add
  case fails =>
    intro options setting error refused result adds
    rw [add_of_refused refused] at adds
    cases adds
  case adds => exact fun _ _ _ => eq_merge_of_add

end TableOptions

/-! ## Options of a column -/

namespace ColumnOptions

/-- Lay options over others. -/
def merge (earlier later : ColumnOptions) : ColumnOptions :=
  ⟨later.name.or earlier.name, earlier.primaryKey || later.primaryKey,
    earlier.nullable || later.nullable⟩

/-- What options of a column come to. -/
def given (settings : List Setting) : ColumnOptions :=
  ⟨Setting.lastText? "name" settings, Setting.mentioned "primary_key" settings,
    Setting.mentioned "nullable" settings⟩

variable {options result : ColumnOptions} {setting : Setting} {error : DeclarationError}

theorem refused_of_add (fails : add options setting = .error error) :
    setting.RefusedByColumn error := by
  rw [add] at fails
  split at fails
  case isTrue key =>
    rcases except_bind_error.mp fails with flag | ⟨_, _, ⟨⟩⟩
    obtain ⟨valued, rfl⟩ := Setting.flag_eq_error_iff.mp flag
    exact .valued (.inl key) valued
  case isFalse unkeyed =>
    split at fails
    case isTrue nullable =>
      rcases except_bind_error.mp fails with flag | ⟨_, _, ⟨⟩⟩
      obtain ⟨valued, rfl⟩ := Setting.flag_eq_error_iff.mp flag
      exact .valued (.inr nullable) valued
    case isFalse required =>
      split at fails
      case isTrue named =>
        rcases except_bind_error.mp fails with text | ⟨_, _, ⟨⟩⟩
        exact .textless named (Setting.text_eq_error_iff.mp text)
      case isFalse unnamed =>
        cases fails
        exact .unknown unnamed unkeyed required

theorem add_of_refused (refused : setting.RefusedByColumn error) :
    add options setting = .error error := by
  rw [add]
  cases refused with
  | unknown unnamed unkeyed required => rw [if_neg unkeyed, if_neg required, if_neg unnamed]
  | textless named textless =>
      rw [if_neg (by simp [named]), if_neg (by simp [named]), if_pos named,
        Setting.text_eq_error_iff.mpr textless]
      rfl
  | valued known valued =>
      rw [Setting.flag_eq_error_iff.mpr ⟨valued, rfl⟩]
      rcases known with key | nullable
      · rw [if_pos key]
        rfl
      · rw [if_neg (by simp [nullable]), if_pos nullable]
        rfl

theorem eq_merge_of_add (adds : add options setting = .ok result) :
    result = options.merge (given [setting]) := by
  rw [merge, given, Setting.lastText?_singleton, Setting.mentioned_singleton,
    Setting.mentioned_singleton]
  rw [add] at adds
  split at adds
  case isTrue key =>
    obtain ⟨_, _, ⟨⟩⟩ := except_bind_ok.mp adds
    rw [Setting.textFor?_of_ne (by simp [key])]
    simp [key]
  case isFalse unkeyed =>
    split at adds
    case isTrue nullable =>
      obtain ⟨_, _, ⟨⟩⟩ := except_bind_ok.mp adds
      rw [Setting.textFor?_of_ne (by simp [nullable])]
      simp [nullable]
    case isFalse required =>
      split at adds
      case isTrue named =>
        obtain ⟨value, text, ⟨⟩⟩ := except_bind_ok.mp adds
        rw [Setting.text_eq_ok_iff, named] at text
        rw [text]
        simp [named]
      case isFalse unnamed => cases adds

theorem overlays_add : Overlays add merge given Setting.RefusedByColumn := by
  constructor
  case nil =>
    intro options
    simp [merge, given, Setting.lastText?, Setting.mentioned]
  case append =>
    intro options left right
    simp only [merge, given, Setting.lastText?_append, Setting.mentioned_append, Option.or_assoc,
      Bool.or_assoc]
  case again =>
    intro options settings
    simp only [merge, ← Option.or_assoc, Option.or_self, Bool.or_assoc, Bool.or_self]
  case refused => exact fun _ _ _ => refused_of_add
  case fails =>
    intro options setting error refused result adds
    rw [add_of_refused refused] at adds
    cases adds
  case adds => exact fun _ _ _ => eq_merge_of_add

end ColumnOptions

/-! ## Attributes -/

namespace Attribute

/-- The options in all attributes of a path, one after another. -/
def options (path : String) (attributes : List Attribute) : List Setting :=
  attributes.flatMap fun group => if group.path = path then group.settings.getD [] else []

/-- An attribute of a path is refused for one of its options, or for having no list of options,
which may be an error. -/
inductive Refused (path : String) (bare? : Option DeclarationError)
    (Refuses : Setting → DeclarationError → Prop) (group : Attribute) :
    DeclarationError → Prop where
  | option {settings : List Setting} {setting : Setting} {error : DeclarationError} :
      group.path = path → group.settings = some settings → setting ∈ settings →
      Refuses setting error → Refused path bare? Refuses group error
  | bare {error : DeclarationError} :
      group.path = path → group.settings = none → bare? = some error →
      Refused path bare? Refuses group error

/-- Read the options of an attribute, if it has the path. -/
def read {Options : Type} (path : String) (bare? : Option DeclarationError)
    (add : Options → Setting → Except DeclarationError Options) (options : Options)
    (group : Attribute) : Except DeclarationError Options :=
  if group.path = path then
    match group.settings with
    | some settings => settings.foldlM add options
    | none => bare?.elim (.ok options) .error
  else .ok options

theorem options_singleton (path : String) (group : Attribute) :
    options path [group] = if group.path = path then group.settings.getD [] else [] := by
  rw [options, List.flatMap_singleton]

/-- Attributes are read like the options in them. -/
theorem overlays_read {Options : Type} {add : Options → Setting → Except DeclarationError Options}
    {merge : Options → Options → Options} {given : List Setting → Options}
    {Refuses : Setting → DeclarationError → Prop} (overlays : Overlays add merge given Refuses)
    (path : String) (bare? : Option DeclarationError) :
    Overlays (read path bare? add) merge (fun attributes => given (options path attributes))
      (Refused path bare? Refuses) := by
  constructor
  case nil => exact overlays.nil
  case append =>
    intro earlier left right
    rw [options, List.flatMap_append]
    exact overlays.append earlier _ _
  case again => exact fun earlier attributes => overlays.again earlier _
  case refused =>
    intro earlier group error fails
    rw [read] at fails
    split at fails
    case isTrue here =>
      split at fails
      · rename_i settings listed
        obtain ⟨setting, member, refused⟩ := overlays.refused_of_foldlM fails
        exact .option here listed member refused
      · rename_i unlisted
        cases known : bare? with
        | none =>
            rw [known] at fails
            cases fails
        | some first =>
            rw [known] at fails
            cases fails
            exact .bare here unlisted rfl
    case isFalse elsewhere => cases fails
  case fails =>
    intro earlier group error refused result reads
    cases refused with
    | option here listed member refused =>
        rw [read, if_pos here, listed] at reads
        exact (overlays.foldlM_eq_ok_iff.mp reads).1 _ member _ refused
    | bare here unlisted error =>
        rw [read, if_pos here, unlisted, error] at reads
        cases reads
  case adds =>
    intro earlier group result reads
    rw [options_singleton]
    rw [read] at reads
    split at reads
    case isTrue here =>
      rw [if_pos here]
      split at reads
      · rename_i settings listed
        rw [listed]
        exact (overlays.foldlM_eq_ok_iff.mp reads).2
      · rename_i unlisted
        cases known : bare? with
        | none =>
            rw [known] at reads
            cases reads
            rw [unlisted]
            exact (overlays.nil earlier).symm
        | some error =>
            rw [known] at reads
            cases reads
    case isFalse elsewhere =>
      cases reads
      rw [if_neg elsewhere]
      exact (overlays.nil earlier).symm

end Attribute

namespace TableOptions

/-- An attribute that a record may not have. -/
abbrev RefusedAttribute : Attribute → DeclarationError → Prop :=
  Attribute.Refused "table" (some .noTableOptions) Setting.RefusedByTable

theorem addAttribute_eq :
    addAttribute = Attribute.read "table" (some .noTableOptions) add := by
  funext options group
  rw [addAttribute, Attribute.read]
  cases group.settings <;> rfl

theorem overlays_addAttribute :
    Overlays addAttribute merge (fun attributes => given (Attribute.options "table" attributes))
      RefusedAttribute := by
  rw [addAttribute_eq]
  exact Attribute.overlays_read overlays_add _ _

theorem ofAttributes_eq_ok_iff {attributes : List Attribute} {options : TableOptions} :
    ofAttributes attributes = .ok options ↔
      (∀ group ∈ attributes, ∀ error, ¬ RefusedAttribute group error) ∧
        options = given (Attribute.options "table" attributes) := by
  rw [ofAttributes, overlays_addAttribute.foldlM_eq_ok_iff]
  simp [merge]

end TableOptions

namespace ColumnOptions

/-- An attribute that a field may not have. -/
abbrev RefusedAttribute : Attribute → DeclarationError → Prop :=
  Attribute.Refused "column" none Setting.RefusedByColumn

theorem addAttribute_eq : addAttribute = Attribute.read "column" none add := by
  funext options group
  rw [addAttribute, Attribute.read]
  cases group.settings <;> rfl

theorem overlays_addAttribute :
    Overlays addAttribute merge (fun attributes => given (Attribute.options "column" attributes))
      RefusedAttribute := by
  rw [addAttribute_eq]
  exact Attribute.overlays_read overlays_add _ _

theorem ofAttributes_eq_ok_iff {attributes : List Attribute} {options : ColumnOptions} :
    ofAttributes attributes = .ok options ↔
      (∀ group ∈ attributes, ∀ error, ¬ RefusedAttribute group error) ∧
        options = given (Attribute.options "column" attributes) := by
  rw [ofAttributes, overlays_addAttribute.foldlM_eq_ok_iff]
  simp [merge]

end ColumnOptions

/-! ## Spreading options over attributes -/

namespace Attribute

/-- The options of a path are spread over attributes in another way: a list of options is cut
in two, a run of attributes stands twice, or an attribute of another path comes in between. -/
inductive Respread (path : String) : List Attribute → List Attribute → Prop where
  | cut (before after : List Attribute) (left right : List Setting) :
      Respread path (before ++ ⟨path, some (left ++ right)⟩ :: after)
        (before ++ ⟨path, some left⟩ :: ⟨path, some right⟩ :: after)
  | again (before run after : List Attribute) :
      Respread path (before ++ run ++ after) (before ++ (run ++ run) ++ after)
  | between (before after : List Attribute) {group : Attribute} :
      group.path ≠ path → Respread path (before ++ after) (before ++ group :: after)

end Attribute

end SqlSelect

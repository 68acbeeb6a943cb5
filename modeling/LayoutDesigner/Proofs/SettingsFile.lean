import LayoutDesigner.Settings
import LayoutDesigner.Proofs.Edit

/-!
# Settings files with parts left out

A settings file is read key by key: a key that stands at its place gives its setting, and a setting
whose key is missing has its default. The settings file of any settings, with any keys, tables and
sections removed, has a table wherever the reader looks for one, so it is read, and gives every
setting that it still has.
-/

namespace LayoutDesigner

namespace Value

variable {α : Type}

/-- What stands under a path of keys. -/
def at? : List Text → Value α → Option (Value α)
  | [], v => some v
  | key :: path, v => (v.get? key).bind (at? path)

/-- Remove what stands under a path of keys. -/
def remove : List Text → Value α → Value α
  | [], v => v
  | [key], .obj members => .obj (members.filter fun m => m.1 ≠ key)
  | key :: path, .obj members =>
    .obj (members.map fun m => if m.1 = key then (m.1, remove path m.2) else m)
  | _ :: _, v => v

/-- An object. -/
def IsTable (v : Value α) : Prop := ∃ members, v = .obj members

@[simp] theorem at?_nil (v : Value α) : v.at? [] = some v := rfl

/-- A path is followed from its first key on. -/
theorem at?_cons (key : Text) (path : List Text) (v : Value α) :
    v.at? (key :: path) = (v.get? key).bind (at? path) := rfl

@[simp] theorem at?_singleton (key : Text) (v : Value α) : v.at? [key] = v.get? key :=
  Option.bind_fun_some _

/-- A path is followed in two parts. -/
theorem at?_append (path rest : List Text) (v : Value α) :
    v.at? (path ++ rest) = (v.at? path).bind (at? rest) := by
  induction path generalizing v with
  | nil => rfl
  | cons key path ih =>
      rw [List.cons_append, at?_cons, at?_cons]
      cases v.get? key with
      | none => rfl
      | some w => exact ih w

/-- A member is gone where members with its key are left out, and any other one stays. -/
theorem member?_filter_ne (key other : Text) (members : List (Text × Value α)) :
    member? other (members.filter fun m => m.1 ≠ key) =
      if other = key then none else member? other members := by
  induction members with
  | nil => simp [member?]
  | cons m rest ih => grind [member?]

/-- A member is changed where its key is meant, and any other one stays. -/
theorem member?_map_at (key other : Text) (f : Value α → Value α)
    (members : List (Text × Value α)) :
    member? other (members.map fun m => if m.1 = key then (m.1, f m.2) else m) =
      if other = key then (member? other members).map f else member? other members := by
  induction members with
  | nil => simp [member?]
  | cons m rest ih => grind [member?]

/-- A removal touches the member that its path begins with, and no other one. -/
theorem get?_remove (key other : Text) (path : List Text) (v : Value α) :
    (v.remove (key :: path)).get? other =
      if other = key then (if path = [] then none else (v.get? other).map (remove path))
      else v.get? other := by
  cases v with
  | obj members =>
      cases path with
      | nil => simpa [remove, get?] using member?_filter_ne key other members
      | cons next path => simpa [remove, get?] using member?_map_at key other _ members
  | null => cases path <;> simp [remove, get?]
  | bool b => cases path <;> simp [remove, get?]
  | num n => cases path <;> simp [remove, get?]
  | str t => cases path <;> simp [remove, get?]
  | arr items => cases path <;> simp [remove, get?]

/-- Nothing stands at the removed place or below it. -/
theorem at?_remove_of_prefix {gone path : List Text} (v : Value α) (removes : gone ≠ [])
    (below : gone <+: path) : (v.remove gone).at? path = none := by
  obtain ⟨rest, rfl⟩ := below
  induction gone generalizing v with
  | nil => exact absurd rfl removes
  | cons key gone ih =>
      rw [List.cons_append, at?_cons, get?_remove, if_pos rfl]
      split
      · rfl
      next more =>
        cases v.get? key with
        | none => rfl
        | some w => exact ih w more

/-- What stands neither below the removed place nor above it stays as it is. -/
theorem at?_remove_of_apart {gone path : List Text} (v : Value α) (notBelow : ¬ gone <+: path)
    (notAbove : ¬ path <+: gone) : (v.remove gone).at? path = v.at? path := by
  induction path generalizing gone v with
  | nil => exact absurd List.nil_prefix notAbove
  | cons key path ih =>
      cases gone with
      | nil => exact absurd List.nil_prefix notBelow
      | cons first gone =>
          rw [at?_cons, at?_cons, get?_remove]
          split
          next same =>
            subst same
            rw [List.cons_prefix_cons, not_and] at notBelow notAbove
            have more : gone ≠ [] := by
              rintro rfl
              exact notBelow rfl List.nil_prefix
            rw [if_neg more]
            cases v.get? key with
            | none => rfl
            | some w => exact ih w (notBelow rfl) (notAbove rfl)
          next => rfl

/-- A removal leaves a table a table. -/
theorem IsTable.remove {v : Value α} (table : v.IsTable) (gone : List Text) :
    (v.remove gone).IsTable := by
  obtain ⟨members, rfl⟩ := table
  match gone with
  | [] => exact ⟨members, rfl⟩
  | [_] => exact ⟨_, rfl⟩
  | _ :: _ :: _ => exact ⟨_, rfl⟩

/-- Whatever stands under the path is a table. -/
def TableAt (path : List Text) (v : Value α) : Prop := ∀ w, v.at? path = some w → w.IsTable

/-- A member of an object whose members are all tables is a table. -/
theorem tableAt_singleton {key : Text} {members : List (Text × Value α)}
    (tables : ∀ m ∈ members, m.2.IsTable) : (Value.obj members).TableAt [key] := by
  intro w found
  rw [at?_singleton, get?] at found
  induction members with
  | nil => cases found
  | cons m rest ih =>
      rw [member?] at found
      split at found
      · cases found
        exact tables m List.mem_cons_self
      · exact ih (fun other inRest => tables other (List.mem_cons_of_mem _ inRest)) found

/-- A removal anywhere leaves tables where there are tables. -/
theorem TableAt.remove {path : List Text} {v : Value α} (table : v.TableAt path)
    (gone : List Text) : (v.remove gone).TableAt path := by
  induction path generalizing gone v with
  | nil =>
      intro w found
      cases found
      exact (table v rfl).remove gone
  | cons key path ih =>
      cases gone with
      | nil => exact table
      | cons first gone =>
          intro w found
          rw [at?_cons, get?_remove] at found
          split at found
          · split at found
            · cases found
            · cases member : v.get? key with
              | none => simp [member] at found
              | some u =>
                  rw [member] at found
                  refine ih (v := u) (fun w found => table w ?_) gone w found
                  rw [at?_cons, member]
                  exact found
          · exact table w found

end Value

namespace Settings

/-- The keys looked for in the tables of a section, by their paths. -/
def groupReadings (name : Text) (groups : List (Text × List Entry)) :
    List (List Text × Setting) :=
  groups.flatMap fun g => g.2.map fun e => ([name, g.1, e.1], e.2)

/-- The keys looked for in a section itself, by their paths. -/
def keyReadings (name : Text) (entries : List Entry) : List (List Text × Setting) :=
  entries.map fun e => ([name, e.1], e.2)

/-- The keys that the reader looks for by their paths, each with its setting, in the order in which
they are taken. -/
def readings : List (List Text × Setting) :=
  keyReadings "general" generalEntries ++ groupReadings "canvas" canvasEntries ++
    groupReadings "editor" editorEntries ++ keyReadings "project" projectEntries

/-- Take the value at a path, if there is one. -/
def takeAt (d : Document) (s : Settings) (r : List Text × Setting) : Settings :=
  match d.at? r.1 with
  | some v => s.set r.2 v
  | none => s

/-- A setting has the value that was set. -/
theorem value_set_self (s : Settings) (k : Setting) (v : Document) : (s.set k v).value k = v :=
  if_pos rfl

/-- Any other setting keeps its value. -/
theorem value_set_of_ne {k other : Setting} (s : Settings) (v : Document) (ne : other ≠ k) :
    (s.set k v).value other = s.value other := if_neg ne

/-- A setting that no reading names keeps its value. -/
theorem value_foldl_takeAt_of_notMem {d : Document} {rs : List (List Text × Setting)} {k : Setting}
    (s : Settings) (absent : k ∉ rs.map Prod.snd) : (rs.foldl (takeAt d) s).value k = s.value k := by
  induction rs generalizing s with
  | nil => rfl
  | cons r rs ih =>
      rw [List.map_cons, List.mem_cons, not_or] at absent
      rw [List.foldl_cons, ih _ absent.2, takeAt]
      split
      · exact value_set_of_ne s _ absent.1
      · rfl

/-- The value of a setting is what stands at the path it is looked for under, where each setting is
looked for once. -/
theorem value_foldl_takeAt {d : Document} {rs : List (List Text × Setting)} {path : List Text}
    {k : Setting} (s : Settings) (once : (rs.map Prod.snd).Nodup) (looked : (path, k) ∈ rs) :
    (rs.foldl (takeAt d) s).value k = (d.at? path).getD (s.value k) := by
  induction rs generalizing s with
  | nil => cases looked
  | cons r rs ih =>
      rw [List.map_cons, List.nodup_cons] at once
      rw [List.foldl_cons]
      rcases List.mem_cons.mp looked with rfl | later
      · rw [value_foldl_takeAt_of_notMem _ once.1, takeAt]
        split
        next found => rw [found, value_set_self, Option.getD_some]
        next missing => rw [missing, Option.getD_none]
      · have other : k ≠ r.2 := by
          rintro rfl
          exact once.1 (List.mem_map.mpr ⟨_, later, rfl⟩)
        rw [ih _ once.2 later, takeAt]
        split
        · rw [value_set_of_ne _ _ other]
        · rfl

variable {d : Document}

/-- The keys of a table are taken at their paths, and none where the table is missing. -/
theorem readKeys_at {path : List Text} (s : Settings) (entries : List Entry)
    (table : d.TableAt path) :
    s.readKeys entries ((d.at? path).getD (.obj [])) =
      .ok ((entries.map fun e => (path ++ [e.1], e.2)).foldl (takeAt d) s) := by
  have found : ∃ members, (d.at? path).getD (.obj []) = .obj members ∧
      ∀ key, d.at? (path ++ [key]) = Value.member? key members := by
    cases there : d.at? path with
    | none => exact ⟨[], rfl, fun key => by rw [Value.at?_append, there]; rfl⟩
    | some w =>
        obtain ⟨members, rfl⟩ := table w there
        refine ⟨members, rfl, fun key => ?_⟩
        rw [Value.at?_append, there, Option.bind_some, Value.at?_singleton, Value.get?]
  obtain ⟨members, isTable, each⟩ := found
  have same : take members = fun s e => takeAt d s (path ++ [e.1], e.2) := by
    funext s e
    cases isMember : Value.member? e.1 members <;> simp [take, takeAt, each, isMember]
  rw [isTable, readKeys, List.foldl_map, same]

/-- An empty table sets nothing. -/
theorem readKeys_empty (s : Settings) (entries : List Entry) :
    s.readKeys entries (.obj []) = .ok s := by
  have unchanged : ∀ entries : List Entry, entries.foldl (take []) s = s := fun entries => by
    induction entries with
    | nil => rfl
    | cons _ _ ih => exact ih
  rw [readKeys, unchanged]

/-- In a section that is a table, a missing table is the same as an empty one. -/
theorem readGroup_obj (s : Settings) (members : List (Text × Document)) (g : Text × List Entry) :
    s.readGroup (.obj members) g = s.readKeys g.2 ((Value.member? g.1 members).getD (.obj [])) := by
  rw [readGroup]
  split
  next found => rw [found, Option.getD_some]
  next missing => rw [missing, Option.getD_none, readKeys_empty]

/-- A table inside a section is read at its path, whether it is there or not. -/
theorem readGroup_at {name : Text} (s : Settings) (g : Text × List Entry) (sect : d.TableAt [name])
    (table : d.TableAt [name, g.1]) :
    s.readGroup ((d.at? [name]).getD (.obj [])) g =
      .ok ((g.2.map fun e => ([name, g.1, e.1], e.2)).foldl (takeAt d) s) := by
  have inner : d.at? [name, g.1] = (d.at? [name]).bind (Value.get? g.1) := by
    rw [Value.at?_cons, Value.at?_singleton]
    exact congrArg _ (funext (Value.at?_singleton g.1))
  have read := readKeys_at s g.2 table
  rw [inner] at read
  cases there : d.at? [name] with
  | none =>
      rw [there] at read
      rw [Option.getD_none, readGroup_obj]
      exact read
  | some w =>
      obtain ⟨members, rfl⟩ := sect w there
      rw [there] at read
      rw [Option.getD_some, readGroup_obj]
      exact read

/-- The tables of a section are read at their paths. -/
theorem readGroups_at {name : Text} (s : Settings) (groups : List (Text × List Entry))
    (sect : d.TableAt [name]) (tables : ∀ inner, d.TableAt [name, inner]) :
    groups.foldlM (fun s g => s.readGroup ((d.at? [name]).getD (.obj [])) g) s =
      .ok ((groupReadings name groups).foldl (takeAt d) s) := by
  induction groups generalizing s with
  | nil => rfl
  | cons g groups ih =>
      rw [List.foldlM_cons, readGroup_at s g sect (tables g.1), groupReadings,
        List.flatMap_cons, List.foldl_append]
      exact ih _

/-- A document that has tables in the places of the file, of its sections and of their tables,
where it has anything there. -/
structure IsOutlined (d : Document) : Prop where
  file : d.TableAt []
  sect : ∀ name : Text, d.TableAt [name]
  canvas : ∀ name : Text, d.TableAt ["canvas", name]
  editor : ∀ name : Text, d.TableAt ["editor", name]

/-- An outlined document stays so when a part is removed. -/
theorem IsOutlined.remove (outlined : IsOutlined d) (gone : List Text) :
    IsOutlined (d.remove gone) where
  file := outlined.file.remove gone
  sect name := (outlined.sect name).remove gone
  canvas name := (outlined.canvas name).remove gone
  editor name := (outlined.editor name).remove gone

/-- A document with tables in the places of tables is read, key by key. -/
theorem ofDocument_eq (outlined : IsOutlined d) :
    ofDocument d = .ok (readings.foldl (takeAt d) defaults) := by
  obtain ⟨members, rfl⟩ := outlined.file d rfl
  have sections : ∀ name : Text, section? name members =
      ((Value.obj members).at? [name]).getD (.obj []) := fun name => by
    rw [section?, Value.at?_singleton, Value.get?]
  rw [readings, List.foldl_append, List.foldl_append, List.foldl_append]
  simp only [ofDocument, sections]
  refine bind_eq_ok.mpr ⟨_, readKeys_at _ _ (outlined.sect _), ?_⟩
  refine bind_eq_ok.mpr ⟨_, readGroups_at _ _ (outlined.sect _) outlined.canvas, ?_⟩
  refine bind_eq_ok.mpr ⟨_, readGroups_at _ _ (outlined.sect _) outlined.editor, ?_⟩
  exact readKeys_at _ _ (outlined.sect _)

end Settings

/-- The path of a setting in the settings file. -/
def Setting.path (k : Setting) : List Text :=
  if Settings.generalKeys.elem k then ["general", k.key] else Settings.tableOf k ++ [k.key]

/-- Every setting is in the list of settings. -/
theorem Setting.mem_all (k : Setting) : k ∈ all := by cases k <;> decide

/-- A setting stands in a section, or in a table of one. -/
theorem Setting.two_le_length_path (k : Setting) : 2 ≤ k.path.length := by
  have all : ∀ k ∈ all, 2 ≤ k.path.length := by decide +kernel
  exact all k k.mem_all

namespace Settings

/-- The settings file of settings. -/
def toDocument (s : Settings) : Document := .obj s.toMembers

/-- The document of settings has the value of each of them at its path. -/
theorem at?_toDocument (s : Settings) (k : Setting) : s.toDocument.at? k.path = some (s.value k) := by
  cases k <;> rfl

/-- The document of settings is outlined. -/
theorem isOutlined_toDocument (s : Settings) : IsOutlined s.toDocument := by
  have grouped : ∀ groups, ∀ m ∈ s.writeGroups groups, m.2.IsTable := by
    intro groups m inSection
    obtain ⟨g, -, rfl⟩ := List.mem_map.mp inSection
    exact ⟨_, rfl⟩
  constructor
  case file =>
    intro w found
    cases found
    exact ⟨_, rfl⟩
  case sect =>
    intro name
    exact Value.tableAt_singleton (by simp [toMembers, Value.IsTable])
  case canvas =>
    intro name w found
    exact Value.tableAt_singleton (grouped canvasGroups) w found
  case editor =>
    intro name w found
    exact Value.tableAt_singleton (grouped editorGroups) w found

/-- The reader looks for every setting once, and under the path that the writer gives it. -/
theorem path_mem_readings (k : Setting) : (k.path, k) ∈ readings := by
  have all : ∀ k ∈ Setting.all, (k.path, k) ∈ readings := by decide +kernel
  exact all k k.mem_all

/-- No setting is read twice. -/
theorem nodup_readings : (readings.map Prod.snd).Nodup := by decide +kernel

/-- What can be left out of a settings file: a section, a table of a section, or a key. -/
inductive Part where
  | sect (name : Text)
  | table (sect name : Text)
  | key (k : Setting)

namespace Part

/-- Where a part stands. -/
def path : Part → List Text
  | .sect name => [name]
  | .table above name => [above, name]
  | .key k => k.path

/-- No part is at the empty path. -/
theorem path_ne_nil (p : Part) : p.path ≠ [] := by
  cases p with
  | key k => exact List.ne_nil_of_length_pos (by have := k.two_le_length_path; rw [path]; omega)
  | sect name => exact List.cons_ne_nil _ _
  | table outer name => exact List.cons_ne_nil _ _

/-- A part that holds a setting is all of its path or ends above it. -/
theorem path_prefix_of_prefix {p : Part} {k : Setting} (above : k.path <+: p.path) :
    p.path <+: k.path := by
  have keys : ∀ k ∈ Setting.all, ∀ other ∈ Setting.all, k.path <+: other.path →
      other.path <+: k.path := by decide +kernel
  have long := k.two_le_length_path
  cases p with
  | key other => exact keys k k.mem_all other other.mem_all above
  | sect name =>
      have short := above.length_le
      simp only [path, List.length_cons, List.length_nil] at short
      omega
  | table outer name =>
      have short := above.length_le
      simp only [path, List.length_cons, List.length_nil] at short
      have whole : k.path = path (.table outer name) := above.eq_of_length (by
        simp only [path, List.length_cons, List.length_nil]
        omega)
      exact whole ▸ List.prefix_rfl

/-- Whether leaving out a part leaves out a setting. -/
def Holds (p : Part) (k : Setting) : Prop := p.path <+: k.path

instance (p : Part) (k : Setting) : Decidable (p.Holds k) :=
  inferInstanceAs (Decidable (p.path <+: k.path))

end Part

/-- The settings file with parts left out. -/
def without (d : Document) (gone : List Part) : Document :=
  gone.foldl (fun d p => d.remove p.path) d

/-- An outlined document stays so without some parts. -/
theorem IsOutlined.without {d : Document} (outlined : IsOutlined d) (gone : List Part) :
    IsOutlined (without d gone) := by
  induction gone generalizing d with
  | nil => exact outlined
  | cons p gone ih => exact ih (outlined.remove p.path)

/-- A key is missing exactly where a part that holds its setting is left out; else it has the value
that it had. -/
theorem at?_without (d : Document) (gone : List Part) (k : Setting) :
    (without d gone).at? k.path = if ∃ p ∈ gone, p.Holds k then none else d.at? k.path := by
  induction gone generalizing d with
  | nil => simp [without]
  | cons p gone ih =>
      have : without d (p :: gone) = without (d.remove p.path) gone := rfl
      rw [this, ih]
      by_cases held : p.Holds k
      · rw [Value.at?_remove_of_prefix d p.path_ne_nil held]
        simp [held]
      · rw [Value.at?_remove_of_apart d held fun above => held (Part.path_prefix_of_prefix above)]
        simp [held]

/-- A document with tables in the places of tables gives every setting what stands at its path. -/
theorem ofDocument_of_isOutlined {d : Document} (outlined : IsOutlined d) :
    ∃ t, ofDocument d = .ok t ∧ ∀ k : Setting, t.value k = (d.at? k.path).getD k.default :=
  ⟨_, ofDocument_eq outlined, fun k =>
    value_foldl_takeAt defaults nodup_readings (path_mem_readings k)⟩

/-- The settings are read back from their file, and of a file that has lost any sections, tables and
keys, what is still there is read back and the rest has its default. -/
theorem ofDocument_without (s : Settings) :
    ofDocument s.toDocument = .ok s ∧
      ∀ gone : List Part, ∃ t, ofDocument (without s.toDocument gone) = .ok t ∧
        ∀ k : Setting,
          if ∃ p ∈ gone, p.Holds k then
            (without s.toDocument gone).at? k.path = none ∧ t.value k = k.default
          else
            (without s.toDocument gone).at? k.path = some (s.value k) ∧ t.value k = s.value k := by
  have outlined := s.isOutlined_toDocument
  constructor
  · obtain ⟨⟨value⟩, read, values⟩ := ofDocument_of_isOutlined outlined
    have same : value = s.value := funext fun k => by
      have here := values k
      rw [at?_toDocument] at here
      exact here
    rw [read, same]
  · intro gone
    obtain ⟨t, read, values⟩ := ofDocument_of_isOutlined (outlined.without gone)
    refine ⟨t, read, fun k => ?_⟩
    have left := at?_without s.toDocument gone k
    rw [at?_toDocument] at left
    rw [values k, left]
    split
    · exact ⟨rfl, rfl⟩
    · exact ⟨rfl, rfl⟩

end Settings

end LayoutDesigner

import ArenaServ.ConfigFiles

/-!
# The environment and the configuration files

A key is as it was before a file was last opened, so that its next use takes the value of
the environment, until a line assigns it; from then on it has the value of the line.
-/

namespace ArenaServ.Config

variable {getenv : List Char → Option (List Char)} {key other : List Char} {c : Config}
  {val : Option (List Char)}

/-- What has been assigned to a key since a file was last opened is its value. -/
def Stands (key : List Char) (c : Config) : Option (List Char) → Prop
  | none => key ∉ c.loadedEnvs
  | some text => key ∈ c.loadedEnvs ∧ c.values key = some (.string text)

theorem stands_opening (file : List Char) : (c.opening file).Stands key none :=
  List.not_mem_nil

theorem lookup_of_mem (h : key ∈ c.loadedEnvs) :
    c.lookup getenv key =
      ((c.values key).getD (.int 0),
        { c with
          values := Function.update c.values key (some ((c.values key).getD (.int 0))) }) := by
  unfold lookup loadFromEnvironment
  rw [if_pos h]

theorem mem_loadedEnvs_lookup :
    other ∈ (c.lookup getenv key).2.loadedEnvs ↔ other ∈ c.loadedEnvs ∨ other = key := by
  unfold lookup loadFromEnvironment
  dsimp only
  by_cases h : key ∈ c.loadedEnvs
  · rw [if_pos h]
    constructor
    · exact Or.inl
    · rintro (hother | rfl)
      · exact hother
      · exact h
  · rw [if_neg h, List.mem_append, List.mem_singleton]

theorem values_lookup_of_ne (h : other ≠ key) :
    (c.lookup getenv key).2.values other = c.values other := by
  unfold lookup loadFromEnvironment
  dsimp only
  rw [Function.update_of_ne h]
  split_ifs
  · rfl
  · exact Function.update_of_ne h ..
  · rfl

theorem stands_lookup_of_ne (h : c.Stands key val) (hother : key ≠ other) :
    (c.lookup getenv other).2.Stands key val := by
  cases val with
  | none =>
      change key ∉ _
      rw [mem_loadedEnvs_lookup, not_or]
      exact ⟨h, hother⟩
  | some text =>
      refine ⟨mem_loadedEnvs_lookup.mpr (Or.inl h.1), ?_⟩
      rw [values_lookup_of_ne hother]
      exact h.2

theorem stands_assign (h : c.Stands key val) (text : List Char) :
    (c.assign getenv other text).Stands key (if other = key then some text else val) := by
  unfold assign
  dsimp only
  by_cases hkey : other = key
  · rw [if_pos hkey, ← hkey]
    exact ⟨mem_loadedEnvs_lookup.mpr (Or.inr rfl), Function.update_self ..⟩
  · rw [if_neg hkey]
    have hlookup : (c.lookup getenv other).2.Stands key val :=
      stands_lookup_of_ne h (Ne.symm hkey)
    cases val with
    | none => exact hlookup
    | some old =>
        refine ⟨hlookup.1, ?_⟩
        dsimp only
        rw [Function.update_of_ne (Ne.symm hkey)]
        exact hlookup.2

/-- What the lines of a file do to a key, whatever has been assigned to it before. -/
theorem stands_readLines (lines : ConfigLines) (h : c.Stands key val) :
    (c.readLines getenv lines).1.Stands key (lines.assigned key val).1 ∧
      (c.readLines getenv lines).2 = (lines.assigned key val).2 := by
  induction lines generalizing c val with
  | eof => exact ⟨h, rfl⟩
  | line buf found named rest ihnamed ihrest =>
      unfold readLines ConfigLines.assigned
      cases ConfigLine.ofBuf buf with
      | skipped => exact ihrest h
      | require file =>
          cases found with
          | false => exact ⟨stands_opening file, rfl⟩
          | true =>
              obtain ⟨hstands, hthrows⟩ := ihnamed (c := c.opening file) (stands_opening file)
              dsimp only
              rw [if_pos rfl, if_pos rfl, hthrows]
              by_cases hthrown : (named.assigned key none).2 = true
              · rw [if_pos hthrown, if_pos hthrown]
                exact ⟨hstands, hthrows⟩
              · rw [if_neg hthrown, if_neg hthrown]
                exact ihrest hstands
      | includes file =>
          apply ihrest
          cases found with
          | false => exact stands_opening file
          | true => exact (ihnamed (c := c.opening file) (stands_opening file)).1
      | assigns other text => exact ihrest (stands_assign h text)

theorem stands_read (file : List Char) (found : Bool) (lines : ConfigLines) :
    (c.read getenv file found lines).1.Stands key (lines.finallyAssigned key found) := by
  unfold read ConfigLines.finallyAssigned
  cases found with
  | false => exact stands_opening file
  | true => exact (stands_readLines lines (stands_opening file)).1

/-- A key that nothing has been assigned to has the value of the environment. -/
theorem lookup_of_stands (henv : configFromenv getenv key ≠ []) (h : c.Stands key val) :
    (c.lookup getenv key).1 = .string (val.getD (configFromenv getenv key)) := by
  cases val with
  | none =>
      have hlength : (configFromenv getenv key).length ≠ 0 := by
        rw [Ne, List.length_eq_zero_iff]
        exact henv
      have hnew : key ∉ c.loadedEnvs := h
      unfold lookup loadFromEnvironment
      dsimp only
      rw [if_neg hnew]
      dsimp only
      rw [if_pos hlength, Function.update_self]
      rfl
  | some text =>
      rw [lookup_of_mem h.1, h.2]
      rfl

/-- Looking values up does not change the value of a key. -/
theorem lookup_lookup (henv : configFromenv getenv key ≠ []) (h : c.Stands key val)
    (other : List Char) :
    ∃ val', val'.getD (configFromenv getenv key) = val.getD (configFromenv getenv key) ∧
      (c.lookup getenv other).2.Stands key val' := by
  by_cases hkey : key = other
  · subst hkey
    refine ⟨some (val.getD (configFromenv getenv key)), rfl,
      mem_loadedEnvs_lookup.mpr (Or.inr rfl), ?_⟩
    have hvalue := lookup_of_stands henv h
    unfold lookup at hvalue ⊢
    dsimp only at hvalue ⊢
    rw [Function.update_self, hvalue]
  · exact ⟨val, rfl, stands_lookup_of_ne h hkey⟩

theorem lookup_run_lookups (henv : configFromenv getenv key ≠ []) (h : c.Stands key val)
    (keys : List (List Char)) :
    ((c.run getenv (keys.map .lookup)).lookup getenv key).1 =
      .string (val.getD (configFromenv getenv key)) := by
  induction keys generalizing c val with
  | nil => exact lookup_of_stands henv h
  | cons other rest ih =>
      obtain ⟨val', hval', hstands⟩ := lookup_lookup henv h other
      rw [← hval']
      exact ih hstands

/-- After a last file has been read, a key has the value of its variable exactly where the file
does not leave another value assigned to it. -/
theorem lookup_eq_env_iff (henv : configFromenv getenv key ≠ []) (before : List ConfigEvent)
    (file : List Char) (found : Bool) (lines : ConfigLines) (keys : List (List Char)) :
    ((c.run getenv (before ++ .read file found lines :: keys.map .lookup)).lookup getenv key).1 =
        .string (configFromenv getenv key) ↔
      ∀ text ∈ lines.finallyAssigned key found, text = configFromenv getenv key := by
  have hrun : c.run getenv (before ++ .read file found lines :: keys.map .lookup) =
      ((c.run getenv before).read getenv file found lines).1.run getenv (keys.map .lookup) := by
    unfold run
    rw [List.foldl_append, List.foldl_cons]
    rfl
  rw [hrun, lookup_run_lookups henv (stands_read file found lines) keys, ConfigVariant.string.injEq]
  cases lines.finallyAssigned key found with
  | none => exact iff_of_true rfl fun text htext => by cases htext
  | some text => simp only [Option.getD_some, Option.mem_some_iff, forall_eq']

/-- The port is set in the environment. -/
def portEnv (name : List Char) : Option (List Char) :=
  if name = "ETHEOS_PORT".toList then some "12345".toList else none

def portFile : ConfigLines := .line "Port = 8078\n".toList false .eof .eof

theorem configFromenv_port : configFromenv portEnv "Port".toList = "12345".toList := by
  decide

theorem lookup_eq_env_iff_port :
    ((run portEnv ⟨[], [], fun _ => none⟩ ([] ++ .read "config.ini".toList true portFile ::
          [].map .lookup)).lookup portEnv "Port".toList).1 =
        .string (configFromenv portEnv "Port".toList) ↔
      ∀ text ∈ portFile.finallyAssigned "Port".toList true,
        text = configFromenv portEnv "Port".toList :=
  lookup_eq_env_iff (by rw [configFromenv_port]; decide) [] _ true portFile []

/-- A line of the file that is read last assigns the key. -/
theorem not_lookup_eq_env :
    ¬ ∀ (getenv : List Char → Option (List Char)) (key : List Char) (c : Config),
      configFromenv getenv key ≠ [] → ∀ before file found lines (keys : List (List Char)),
        ((c.run getenv (before ++ .read file found lines :: keys.map .lookup)).lookup getenv
          key).1 = .string (configFromenv getenv key) := by
  intro hall
  have hport := hall portEnv "Port".toList ⟨[], [], fun _ => none⟩
    (by rw [configFromenv_port]; decide) [] "config.ini".toList true portFile []
  revert hport
  decide

end ArenaServ.Config

/-
# Hidden values

A value that a higher layer gives hides those of the layers below. Loading twice, with variables
that differ only in what is hidden, shows whether anything of them gets through. Of most variables
nothing does. The port of the variables is checked before the command line hides it, so one that is
not a number always does.
-/
import Errand.Proofs.Config.Layers
import Errand.Proofs.Text.Encoding

namespace Errand.Config

section TwoRuns

variable {file : Option (Except OsFault (List UInt8))} {vars others : ProcessVariables}
  {overrides : Overrides}

/-- Two loads are the same if the variables say the same about all fields that the command line
leaves open and no port is spoilt, or the same one is. -/
theorem load_congr (spoilt : spoiltPort? vars = spoiltPort? others)
    (agree : ∀ field, overrides.layer field = none →
      ofVariables vars field = ofVariables others field) :
    load file vars overrides = load file others overrides := by
  have same (base : Config) :
      overrides.layer.onto ((ofVariables vars).onto base) =
        overrides.layer.onto ((ofVariables others).onto base) := by
    apply layer_injective
    simp only [layer_onto]
    exact Layer.above_congr fun field leftOpen =>
      congrArg (Option.or · _) (agree field leftOpen)
  simp only [load_eq, spoilt, same]

/-- Where the file cannot be read, neither the variables nor the command line matter. -/
theorem load_of_unreadable {fault : LoadFault} (fails : ofFile file = .error fault) :
    load file vars overrides = .error fault := by
  rw [load_eq, fails]
  rfl

/-- Where the file can be read, a spoilt port can be told from what comes of loading. -/
theorem spoiltPort?_eq_of_load_eq {base : Config} (reads : ofFile file = .ok base)
    (same : load file vars overrides = load file others overrides) :
    spoiltPort? vars = spoiltPort? others := by
  rw [load_eq, load_eq, reads] at same
  dsimp only [Except.bind] at same
  cases spoilt : spoiltPort? vars with
  | none =>
      cases spoiltToo : spoiltPort? others with
      | none => rfl
      | some text => simp [spoilt, spoiltToo] at same
  | some text =>
      cases spoiltToo : spoiltPort? others with
      | none => simp [spoilt, spoiltToo] at same
      | some other => simpa [spoilt, spoiltToo] using same

/-- Changing the variables of a field that the command line gives has an effect only through a
spoilt port. -/
theorem load_eq_load_iff {field : Field} (hidden : (overrides.layer field).isSome)
    (agree : AgreeOutside field.variables vars others) :
    load file vars overrides = load file others overrides ↔
      (∃ fault, ofFile file = .error fault) ∨ spoiltPort? vars = spoiltPort? others := by
  constructor
  · intro same
    cases reads : ofFile file with
    | error fault => exact .inl ⟨fault, rfl⟩
    | ok base => exact .inr (spoiltPort?_eq_of_load_eq reads same)
  · rintro (⟨fault, fails⟩ | spoilt)
    · rw [load_of_unreadable fails, load_of_unreadable fails]
    · refine load_congr spoilt fun other leftOpen => agree.ofVariables ?_
      rintro rfl
      rw [leftOpen] at hidden
      cases hidden

/-- The general variable for the level has no effect under the library's own. -/
theorem load_eq_load_of_level (given : (vars.text? "FLEET_SHELL_LOG_LEVEL".toList).isSome)
    (agree : AgreeOutside ["RUST_LOG".toList] vars others) :
    load file vars overrides = load file others overrides := by
  have wider : AgreeOutside Field.level.variables vars others :=
    agree.mono (List.subset_cons_self _ _)
  refine load_congr (wider.spoiltPort? (by decide)) fun field _ => ?_
  by_cases isLevel : field = .level
  · subst isLevel
    obtain ⟨level, found⟩ := Option.isSome_iff_exists.mp given
    have foundToo := found
    rw [agree _ (by decide)] at foundToo
    simp only [ofVariables, found, foundToo, Option.some_or]
  · exact wider.ofVariables isLevel

/-- A port on the command line is the port of the configuration, if one is loaded at all. -/
theorem load_of_port {port : UInt16} {base : Config} (hidden : overrides.port = some port)
    (reads : ofFile file = .ok base) :
    match spoiltPort? vars with
    | some text => load file vars overrides = .error (.invalidPort text)
    | none => ∃ config, load file vars overrides = .ok config ∧ config.backend.port = port := by
  rw [load_eq, reads]
  dsimp only [Except.bind]
  cases spoiltPort? vars with
  | some text => rfl
  | none =>
      refine ⟨_, rfl, ?_⟩
      show overrides.port.getD _ = port
      rw [hidden]
      rfl

end TwoRuns

/-- To set a variable, or to set it to something else, makes no difference outside its name. -/
theorem agreeOutside_cons (name : Text) (value : List UInt8) (vars : ProcessVariables) :
    AgreeOutside [name] ((Utf8.encode name, value) :: vars) vars := by
  intro other outside
  have differs : (Utf8.encode other == Utf8.encode name) = false := by
    refine beq_false_of_ne fun same => outside (List.mem_singleton.mpr ?_)
    rw [← Utf8.decode_encode other, same, Utf8.decode_encode]
  rw [ProcessVariables.text?, ProcessVariables.text?, List.lookup_cons, differs]

/-- Variables of a field that the command line gives have no effect on what comes of loading, but
for one. While the file can be read, loading tells two ports in the variables apart by whether they
are numbers, and if not by their texts. The port of the command line is that of the configuration
unless the hidden one is spoilt, which is a fault. Among the variables themselves the library's own
level hides the general one. -/
theorem hidden_variables_matter_iff (file : Option (Except OsFault (List UInt8)))
    (overrides : Overrides) (vars others : ProcessVariables) :
    (∀ field, (overrides.layer field).isSome → AgreeOutside field.variables vars others →
      (load file vars overrides = load file others overrides ↔
        (∃ fault, ofFile file = .error fault) ∨ spoiltPort? vars = spoiltPort? others) ∧
      (field ≠ .port → load file vars overrides = load file others overrides)) ∧
    (∀ port base, overrides.port = some port → ofFile file = .ok base →
      match spoiltPort? vars with
      | some text => load file vars overrides = .error (.invalidPort text)
      | none => ∃ config, load file vars overrides = .ok config ∧ config.backend.port = port) ∧
    ((vars.text? "FLEET_SHELL_LOG_LEVEL".toList).isSome →
      AgreeOutside ["RUST_LOG".toList] vars others →
      load file vars overrides = load file others overrides) := by
  refine ⟨fun field hidden agree => ?_, fun _ _ => load_of_port, load_eq_load_of_level⟩
  have matters : load file vars overrides = load file others overrides ↔ _ :=
    load_eq_load_iff hidden agree
  exact ⟨matters, fun notPort => matters.mpr (.inr (agree.spoiltPort? notPort))⟩

/-- A number as the port of the variables is hidden by the port of the command line. -/
theorem hidden_number_does_not_matter :
    let vars : ProcessVariables :=
      [(Utf8.encode "FLEET_SHELL_PORT".toList, Utf8.encode "2300".toList)]
    let overrides : Overrides := ⟨none, none, some 2400, none, none⟩
    load none vars overrides = load none [] overrides ∧
      ∃ config, load none vars overrides = .ok config ∧ config.backend.port = 2400 := by
  intro vars overrides
  obtain ⟨same, settled, -⟩ := hidden_variables_matter_iff none overrides vars []
  have number : spoiltPort? vars = none := by decide +kernel
  have loads := settled 2400 standard rfl rfl
  rw [number] at loads
  exact ⟨(same .port rfl (agreeOutside_cons _ _ _)).1.mpr (.inr number), loads⟩

/-- A word as the port of the variables is a fault, although the command line hides it. -/
theorem hidden_word_matters :
    let vars : ProcessVariables :=
      [(Utf8.encode "FLEET_SHELL_PORT".toList, Utf8.encode "ssh".toList)]
    let overrides : Overrides := ⟨none, none, some 2400, none, none⟩
    AgreeOutside ["FLEET_SHELL_PORT".toList] vars [] ∧
      load none vars overrides = .error (.invalidPort "ssh".toList) ∧
      load none [] overrides =
        .ok { standard with backend := { BackendSection.standard with port := 2400 } } := by
  refine ⟨agreeOutside_cons _ _ _, ?_, rfl⟩
  decide +kernel

end Errand.Config

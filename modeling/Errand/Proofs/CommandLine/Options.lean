/-
# Written options

Options stand before the command in any order and number, each in one of its spellings, and every
value may look like anything: like an option, like an assignment, like nothing at all. What keeps
them apart is that a setting takes the next word without looking at it, and that its name ends at
the first equals sign. So each written option is read as itself, whatever stands behind it, and
reading a command line is applying its options one after another.

From the command on nothing is read any more. What the options have settled is the same whatever
the command and its arguments are.
-/
import Errand.Arguments
import Errand.Proofs.Text.Decimals
import Errand.Proofs.Text.Seams

namespace Errand.Arguments

/-! ## Options and their names -/

/-- What a value of a setting is. -/
abbrev Setting.Value : Setting → Type
  | .host => Text
  | .user => Text
  | .port => UInt16
  | .timeout => UInt64
  | .config => Text
  | .logLevel => Text

/-- A value as it is written. -/
def Setting.write : (setting : Setting) → setting.Value → Text
  | .host, name => name
  | .user, name => name
  | .port, number => Decimal.ofNat number.toNat
  | .timeout, secs => Decimal.ofNat secs.toNat
  | .config, path => path
  | .logLevel, level => level

namespace OptionKind

def shortName : OptionKind → Char
  | .flag .help => 'h'
  | .flag .version => 'V'
  | .flag .many => 'm'
  | .setting .host => 'H'
  | .setting .user => 'u'
  | .setting .port => 'p'
  | .setting .timeout => 't'
  | .setting .config => 'c'
  | .setting .logLevel => 'l'

def longName : OptionKind → Text
  | .flag .help => "help".toList
  | .flag .version => "version".toList
  | .flag .many => "many".toList
  | .setting .host => "host".toList
  | .setting .user => "user".toList
  | .setting .port => "port".toList
  | .setting .timeout => "timeout".toList
  | .setting .config => "config".toList
  | .setting .logLevel => "log-level".toList

/-- The word that is the short name. -/
def shortWord (kind : OptionKind) : Text := ['-', kind.shortName]

/-- The word that is the long name. -/
def longWord (kind : OptionKind) : Text := '-' :: '-' :: kind.longName

theorem longName_ne_nil (kind : OptionKind) : kind.longName ≠ [] := by
  rcases kind with flag | setting
  · cases flag <;> exact List.cons_ne_nil _ _
  · cases setting <;> exact List.cons_ne_nil _ _

end OptionKind

/-- How the value of a setting is given. -/
inductive Spelling where
  /-- As the word behind the short name. -/
  | short
  /-- As the word behind the long name. -/
  | long
  /-- In one word with the long name, behind an equals sign. -/
  | joined
  deriving DecidableEq, Repr

/-- One option as it is given. -/
inductive Given where
  | ofFlag (flag : Flag) (isLong : Bool)
  | ofSetting (setting : Setting) (value : setting.Value) (spelling : Spelling)

namespace Given

/-- The words of an option. -/
def words : Given → List Text
  | .ofFlag flag false => [(OptionKind.flag flag).shortWord]
  | .ofFlag flag true => [(OptionKind.flag flag).longWord]
  | .ofSetting setting value .short => [(OptionKind.setting setting).shortWord, setting.write value]
  | .ofSetting setting value .long => [(OptionKind.setting setting).longWord, setting.write value]
  | .ofSetting setting value .joined =>
    [(OptionKind.setting setting).longWord ++ '=' :: setting.write value]

/-- The value that an option gives a setting, if it gives it one. -/
def value? (setting : Setting) : Given → Option setting.Value
  | .ofFlag _ _ => none
  | .ofSetting other value _ => if same : other = setting then some (same ▸ value) else none

/-- Whether an option raises a flag. -/
def raises (flag : Flag) : Given → Bool
  | .ofFlag other _ => other = flag
  | .ofSetting _ _ _ => false

end Given

/-- A command line: options, a separator if one is wanted, the command and its arguments. -/
def written (given : List Given) (separated : Bool) (command : Text) (rest : List Text) :
    List Text :=
  given.flatMap Given.words ++ ((if separated then ["--".toList] else []) ++ command :: rest)

/-! ## What is set -/

/-- The value of a setting. -/
def value? : (setting : Setting) → Arguments → Option setting.Value
  | .host, arguments => arguments.host
  | .user, arguments => arguments.user
  | .port, arguments => arguments.port
  | .timeout, arguments => arguments.timeoutSecs
  | .config, arguments => arguments.config
  | .logLevel, arguments => arguments.logLevel

/-- The arguments with a value for a setting. -/
def put : (setting : Setting) → setting.Value → Arguments → Arguments
  | .host, name, arguments => { arguments with host := some name }
  | .user, name, arguments => { arguments with user := some name }
  | .port, number, arguments => { arguments with port := some number }
  | .timeout, secs, arguments => { arguments with timeoutSecs := some secs }
  | .config, path, arguments => { arguments with config := some path }
  | .logLevel, level, arguments => { arguments with logLevel := some level }

/-- Whether a flag is set. -/
def isRaised : Flag → Arguments → Bool
  | .help, arguments => arguments.help
  | .version, arguments => arguments.version
  | .many, arguments => arguments.many

/-- The arguments with one more option. -/
def Given.apply (arguments : Arguments) : Given → Arguments
  | .ofFlag flag _ => arguments.raise flag
  | .ofSetting setting value _ => arguments.put setting value

section Fields

variable {setting : Setting} {flag : Flag} (arguments : Arguments)

/-- An option gives its own setting a value and leaves all others alone. -/
theorem value?_apply (option : Given) :
    (option.apply arguments).value? setting =
      (option.value? setting).or (arguments.value? setting) := by
  cases option with
  | ofFlag other isLong => cases other <;> cases setting <;> rfl
  | ofSetting other value spelling =>
      rw [Given.value?]
      split
      · next same =>
          subst same
          cases other <;> rfl
      · next apart => cases other <;> cases setting <;> first | rfl | exact absurd rfl apart

/-- It raises its own flag and no other. -/
theorem isRaised_apply (option : Given) :
    (option.apply arguments).isRaised flag = (option.raises flag || arguments.isRaised flag) := by
  cases option with
  | ofFlag other isLong => cases other <;> cases flag <;> rfl
  | ofSetting other value spelling => cases other <;> cases flag <;> rfl

/-- Of several values the last one counts. -/
theorem value?_foldl (given : List Given) :
    (given.foldl Given.apply arguments).value? setting =
      (given.filterMap (Given.value? setting)).getLast?.or (arguments.value? setting) := by
  induction given generalizing arguments with
  | nil => rfl
  | cons option given ih =>
      rw [List.foldl_cons, ih, value?_apply, List.filterMap_cons]
      cases option.value? setting with
      | none => rfl
      | some value =>
          rw [List.getLast?_cons]
          cases (given.filterMap (Given.value? setting)).getLast? <;> rfl

theorem isRaised_foldl (given : List Given) :
    (given.foldl Given.apply arguments).isRaised flag =
      (given.any (Given.raises flag) || arguments.isRaised flag) := by
  induction given generalizing arguments with
  | nil => rfl
  | cons option given ih =>
      rw [List.foldl_cons, ih, isRaised_apply, List.any_cons, ← Bool.or_assoc,
        Bool.or_comm (option.raises flag)]

end Fields

/-! ## Words -/

/-- The bytes in front of an equals sign are cut off at the first one. -/
theorem cutEquals_of_not_mem {bytes : List UInt8} (none : 61 ∉ bytes) (value : List UInt8) :
    cutEquals (bytes ++ 61 :: value) = (bytes, some value) := by
  induction bytes with
  | nil => rfl
  | cons byte bytes ih =>
      rw [List.mem_cons, not_or] at none
      rw [List.cons_append, cutEquals, if_neg fun same => none.1 same.symm, ih none.2]

theorem WordKind.of_long {name : Text} (some : name ≠ []) :
    WordKind.of (Utf8.encode ('-' :: '-' :: name)) = .long (Utf8.encode name) := by
  obtain ⟨c, name, rfl⟩ := List.exists_cons_of_ne_nil some
  obtain ⟨first, others, isChar, -⟩ := Utf8.exists_encodeChar c
  have hyphens : Utf8.encode ('-' :: '-' :: c :: name) = 45 :: 45 :: Utf8.encode (c :: name) := rfl
  rw [hyphens, Utf8.encode_cons, isChar]
  rfl

/-- Only a hyphen begins with the byte of a hyphen. -/
theorem WordKind.of_plain {word : Text} (bare : word.head? ≠ some '-') :
    WordKind.of (Utf8.encode word) = .plain := by
  cases word with
  | nil => rfl
  | cons c word =>
      obtain ⟨first, others, isChar, -⟩ := Utf8.exists_encodeChar c
      have other : first ≠ 45 := by
        rintro rfl
        have isHyphen : (45 : UInt8).toNat = c.toNat :=
          (Utf8.written_encodeChar c).eq_of_mem (by rw [isChar]; exact List.mem_cons_self)
            (by decide)
        apply bare
        rw [List.head?_cons, ← Char.ofNat_toNat c, ← isHyphen]
        rfl
      have apart (rest behind : List UInt8) : first :: rest ≠ 45 :: behind :=
        fun same => other (List.cons.inj same).1
      rw [Utf8.encode_cons, isChar, List.cons_append, WordKind.of]
      · exact apart _ _
      · exact fun _ => apart _ _
      · exact fun _ _ => apart _ _

theorem WordKind.of_shortWord (kind : OptionKind) :
    WordKind.of (Utf8.encode kind.shortWord) = .cluster (Utf8.encode [kind.shortName]) := by
  rcases kind with flag | setting
  · cases flag <;> rfl
  · cases setting <;> rfl

theorem WordKind.of_longWord (kind : OptionKind) :
    WordKind.of (Utf8.encode kind.longWord) = .long (Utf8.encode kind.longName) :=
  WordKind.of_long kind.longName_ne_nil

section Reading

variable (arguments : Arguments)

theorem readNumber_ofNat (name : String) {n bound : Nat} (within : n < bound) :
    readNumber name bound (Decimal.ofNat n) = .ok n := by
  rw [readNumber, Decimal.unsigned?_ofNat within]

/-- A setting takes the value that is written for it. -/
theorem assign_write (setting : Setting) (value : setting.Value) :
    arguments.assign setting (Utf8.encode (setting.write value)) =
      .ok (arguments.put setting value) := by
  rw [assign, Utf8.decode?_encode]
  cases setting with
  | host | user | config | logLevel => rfl
  | port =>
      show (readNumber "port" UInt16.size (Decimal.ofNat (UInt16.toNat value))).map _ = _
      rw [readNumber_ofNat "port" (UInt16.toNat_lt value), Except.map, UInt16.ofNat_toNat]
      rfl
  | timeout =>
      show (readNumber "timeout" UInt64.size (Decimal.ofNat (UInt64.toNat value))).map _ = _
      rw [readNumber_ofNat "timeout" (UInt64.toNat_lt value), Except.map, UInt64.ofNat_toNat]
      rfl

/-- A short name alone in its word is read as its option, and a setting asks for a word. -/
theorem readCluster_flag (flag : Flag) :
    readCluster none (Utf8.pieces (Utf8.encode [(OptionKind.flag flag).shortName])) arguments =
      .ok (arguments.raise flag, none) := by
  cases flag <;> rfl

theorem readCluster_setting (setting : Setting) :
    readCluster none (Utf8.pieces (Utf8.encode [(OptionKind.setting setting).shortName]))
      arguments = .ok (arguments, some (setting, (OptionKind.setting setting).shortWord)) := by
  cases setting <;> rfl

/-- So is a long name. -/
theorem readLong_flag (flag : Flag) :
    readLong (Utf8.encode (OptionKind.flag flag).longName) arguments =
      .ok (arguments.raise flag, none) := by
  cases flag <;> rfl

theorem readLong_setting (setting : Setting) :
    readLong (Utf8.encode (OptionKind.setting setting).longName) arguments =
      .ok (arguments, some (setting, (OptionKind.setting setting).longWord)) := by
  cases setting <;> rfl

/-- Behind an equals sign stands the value, whatever it looks like. -/
theorem readLong_joined (setting : Setting) (value : setting.Value) :
    readLong (Utf8.encode ((OptionKind.setting setting).longName ++ '=' :: setting.write value))
      arguments = .ok (arguments.put setting value, none) := by
  let name := (OptionKind.setting setting).longName
  have noEquals : 61 ∉ Utf8.encode name := by cases setting <;> decide
  have isName : Utf8.replace (Utf8.encode name) = name := by cases setting <;> rfl
  have isSetting : OptionKind.ofLong? name = some (.setting setting) := by cases setting <;> rfl
  have word : Utf8.encode (name ++ '=' :: setting.write value) =
      Utf8.encode name ++ 61 :: Utf8.encode (setting.write value) := Utf8.encode_append _ _
  rw [readLong, word, cutEquals_of_not_mem noEquals]
  simp only [isName, isSetting, assign_write]
  rfl

/-- A written option is read as itself, whatever words stand behind it. -/
theorem readFrom_words (option : Given) (behind : List (List UInt8)) :
    readFrom (option.words.map Utf8.encode ++ behind) arguments =
      readFrom behind (option.apply arguments) := by
  cases option with
  | ofFlag flag isLong =>
      cases isLong with
      | false =>
          rw [Given.words, List.map_singleton, List.singleton_append, readFrom,
            WordKind.of_shortWord]
          simp only [readCluster_flag]
          rfl
      | true =>
          rw [Given.words, List.map_singleton, List.singleton_append, readFrom,
            WordKind.of_longWord]
          simp only [readLong_flag]
          rfl
  | ofSetting setting value spelling =>
      cases spelling with
      | short =>
          rw [Given.words, List.map_cons, List.map_singleton, List.cons_append, readFrom,
            WordKind.of_shortWord]
          simp only [readCluster_setting]
          show (arguments.assign setting _ >>= fun after => readFrom behind after) = _
          rw [assign_write]
          rfl
      | long =>
          rw [Given.words, List.map_cons, List.map_singleton, List.cons_append, readFrom,
            WordKind.of_longWord]
          simp only [readLong_setting]
          show (arguments.assign setting _ >>= fun after => readFrom behind after) = _
          rw [assign_write]
          rfl
      | joined =>
          have isLong := WordKind.of_long (List.append_ne_nil_of_left_ne_nil
            (OptionKind.setting setting).longName_ne_nil ('=' :: setting.write value))
          rw [Given.words, List.map_singleton, List.singleton_append, readFrom,
            OptionKind.longWord, List.cons_append, List.cons_append, isLong]
          simp only [readLong_joined]
          rfl

/-- Options are applied one after another. -/
theorem readFrom_flatMap_words (given : List Given) (behind : List (List UInt8)) :
    readFrom ((given.flatMap Given.words).map Utf8.encode ++ behind) arguments =
      readFrom behind (given.foldl Given.apply arguments) := by
  induction given generalizing arguments with
  | nil => rfl
  | cons option given ih =>
      rw [List.flatMap_cons, List.map_append, List.append_assoc, readFrom_words, ih]
      rfl

/-- The words of a command are taken as they are. -/
theorem readCommand_encode (command : Text) (rest : List Text) :
    readCommand (Utf8.encode command :: rest.map Utf8.encode) arguments =
      .ok { arguments with commands := command :: rest } := by
  have all : rest.mapM (fun text => (.ok text : Except Fault Text)) = .ok rest := by
    show rest.mapM (fun text => (pure text : Except Fault Text)) = _
    rw [List.mapM_pure, List.map_id']
    rfl
  rw [readCommand, Utf8.decode?_encode]
  simp only [List.mapM_map, Function.comp_def, Utf8.decode?_encode, all]
  rfl

/-- A command begins behind a separator, or where a word does not begin with a hyphen. -/
theorem readFrom_command {separated : Bool} {command : Text}
    (bare : separated = false → command.head? ≠ some '-') (rest : List Text) :
    readFrom (((if separated then ["--".toList] else []) ++ command :: rest).map Utf8.encode)
      arguments = .ok { arguments with commands := command :: rest } := by
  cases separated with
  | true => exact readCommand_encode arguments command rest
  | false =>
      have plain := WordKind.of_plain (bare rfl)
      show readFrom (Utf8.encode command :: rest.map Utf8.encode) arguments = _
      rw [readFrom, plain]
      exact readCommand_encode arguments command rest

end Reading

/-- Written options are read back, whatever their order, their spelling and their values: each
setting has the last of its values, if it has any, and the flags that are raised are those that are
given. The command and its arguments are taken as they are, and nothing else depends on them. -/
theorem written_options_are_read_back (given : List Given) :
    ∃ settled : Arguments,
      (∀ setting, settled.value? setting = (given.filterMap (Given.value? setting)).getLast?) ∧
      (∀ flag, settled.isRaised flag = given.any (Given.raises flag)) ∧
      ∀ separated command rest, (separated = false → command.head? ≠ some '-') →
        read ((written given separated command rest).map Utf8.encode) =
          .ok { settled with commands := command :: rest } := by
  refine ⟨given.foldl Given.apply empty, fun setting => ?_, fun flag => ?_, ?_⟩
  · rw [value?_foldl]
    cases setting <;> exact Option.or_none
  · rw [isRaised_foldl]
    cases flag <;> exact Bool.or_false _
  · intro separated command rest bare
    rw [read, written, List.map_append, readFrom_flatMap_words, readFrom_command _ bare]
    rfl

/-- Values that look like options, like a separator and like nothing, in front of a command and
arguments that do. -/
theorem deceptive_options_are_read_back :
    let given : List Given := [.ofSetting .host "db01".toList .short, .ofFlag .many false,
      .ofSetting .user "--".toList .long, .ofSetting .config "=-h".toList .joined,
      .ofSetting .port 2222 .joined, .ofSetting .host [] .joined]
    let rest := ["-h".toList, "--".toList, "--port=x".toList]
    "ls".toList.head? ≠ some '-' ∧
      read ((written given false "ls".toList rest).map Utf8.encode) =
        .ok ⟨some [], some "--".toList, some 2222, none, some "=-h".toList, none, true,
          "ls".toList :: rest, false, false⟩ ∧
      read ((written given true "-V".toList rest).map Utf8.encode) =
        .ok ⟨some [], some "--".toList, some 2222, none, some "=-h".toList, none, true,
          "-V".toList :: rest, false, false⟩ := by
  intro given rest
  have bare : "ls".toList.head? ≠ some '-' := by decide
  obtain ⟨⟨host, user, port, timeoutSecs, config, logLevel, many, commands, version, help⟩, values,
    flags, reads⟩ := written_options_are_read_back given
  obtain rfl : host = some [] := values .host
  obtain rfl : user = some "--".toList := values .user
  obtain rfl : port = some 2222 := values .port
  obtain rfl : timeoutSecs = none := values .timeout
  obtain rfl : config = some "=-h".toList := values .config
  obtain rfl : logLevel = none := values .logLevel
  obtain rfl : many = true := flags .many
  obtain rfl : version = false := flags .version
  obtain rfl : help = false := flags .help
  exact ⟨bare, reads false _ rest fun _ => bare, reads true _ rest fun apart => by cases apart⟩

end Errand.Arguments

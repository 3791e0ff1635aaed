/-
# Where commands run

A target means this machine if it has no host, or if its host is one of this machine's and its user
is the one who runs the program. Every other target needs a user, a password and a port. The first
of them that it lacks is what the error names, and only a target that lacks none is connected to.

An executor for another machine answers with what the other side gives it. The machine that the
program runs on has no part in that, so nothing runs there that was meant for another user or
another host.
-/
import Errand.Backend.Executor
import Errand.Proofs.Remote.Course
import Errand.Proofs.Text.Decoding
import Mathlib.Data.List.Forall2

namespace Errand

/-! ## Names in any case -/

/-- A lower case letter, or the upper case letter in its place. -/
def IsCaseOf (c letter : Char) : Prop := c = letter ∨ c = letter.toUpper

theorem toLower_eq_iff_isCaseOf {c letter : Char} (isLower : letter.isLower = true) :
    c.toLower = letter ↔ IsCaseOf c letter := by
  obtain ⟨fromA, toZ⟩ := Bool.and_eq_true_iff.mp isLower
  have isLetter : 'a'.val ≤ letter.val ∧ letter.val ≤ 'z'.val :=
    ⟨of_decide_eq_true fromA, of_decide_eq_true toZ⟩
  have range : 97 ≤ letter.toNat ∧ letter.toNat ≤ 122 := by
    simpa [UInt32.le_iff_toNat_le] using isLetter
  delta IsCaseOf Char.toLower Char.toUpper
  rw [dif_pos isLetter]
  split_ifs with isUpper
  · have upper : 65 ≤ c.toNat ∧ c.toNat ≤ 90 := by
      simpa [UInt32.le_iff_toNat_le] using isUpper
    simp only [Char.ext_iff, UInt32.ext_iff, UInt32.toNat_add, Char.toNat_val, Char.reduceVal,
      UInt32.reduceSub, UInt32.reduceToNat, Nat.reducePow]
    omega
  · have other : ¬ (65 ≤ c.toNat ∧ c.toNat ≤ 90) := by
      simpa [UInt32.le_iff_toNat_le] using isUpper
    simp only [Char.ext_iff, UInt32.ext_iff, UInt32.toNat_add, Char.toNat_val, Char.reduceVal,
      UInt32.reduceSub, UInt32.reduceToNat, Nat.reducePow]
    omega

/-- A text agrees with a lower case name if each of its letters is a case of the one in its
place. -/
theorem agreesFolded_iff_forall₂ {name : Text} (areLower : ∀ c ∈ name, c.isLower = true)
    (text : Text) : Text.agreesFolded text name = true ↔ List.Forall₂ IsCaseOf text name := by
  have folded : Text.foldCase name = name := by
    have fixed : ∀ c ∈ name, c.toLower = c := fun c isMember =>
      (toLower_eq_iff_isCaseOf (areLower c isMember)).mpr (.inl rfl)
    rw [Text.foldCase, List.map_congr_left fixed, List.map_id']
  rw [Text.agreesFolded, folded, beq_iff_eq, Text.foldCase]
  clear folded
  induction name generalizing text with
  | nil => rw [List.map_eq_nil_iff, List.forall₂_nil_right_iff]
  | cons letter name ih =>
      rw [List.forall_mem_cons] at areLower
      cases text with
      | nil => simp
      | cons c text =>
          rw [List.map_cons, List.cons.injEq, List.forall₂_cons]
          exact and_congr (toLower_eq_iff_isCaseOf areLower.1) (ih areLower.2 text)

/-! ## Who runs the program -/

/-- A variable of the process has this text for its value. Of several of one name the first
counts. -/
def ProcessVariables.Says (vars : ProcessVariables) (name value : Text) : Prop :=
  ∃ earlier later, vars = earlier ++ (Utf8.encode name, Utf8.encode value) :: later ∧
    ∀ other, (Utf8.encode name, other) ∉ earlier

theorem ProcessVariables.text?_eq_some_iff {vars : ProcessVariables} {name value : Text} :
    vars.text? name = some value ↔ vars.Says name value := by
  simp only [text?, Says, Option.bind_eq_some_iff, List.lookup_eq_some_iff,
    Utf8.decode?_eq_some_iff, bne_iff_ne]
  constructor
  · rintro ⟨_, ⟨earlier, later, split, unseen⟩, rfl⟩
    exact ⟨earlier, later, split, fun other member => unseen _ member rfl⟩
  · rintro ⟨earlier, later, split, unseen⟩
    refine ⟨_, ⟨earlier, later, split, ?_⟩, rfl⟩
    rintro ⟨_, other⟩ member rfl
    exact unseen other member

namespace Backend

open Remote

/-- A variable names a user if it is text and not empty. -/
def Identity.Names (identity : Identity) (name user : Text) : Prop :=
  identity.vars.Says name user ∧ user ≠ []

/-- The user who runs the program: the one that the first of three variables names, else the one
of the account, if it has a name. -/
inductive Identity.Invokes (identity : Identity) : Option Text → Prop
  | named {earlier later : List Text} {name user : Text}
    (asked : ["USER".toList, "LOGNAME".toList, "USERNAME".toList] = earlier ++ name :: later)
    (names : identity.Names name user)
    (first : ∀ other ∈ earlier, ∀ another, ¬ identity.Names other another) :
    Invokes identity (some user)
  | account (unnamed : ∀ name ∈ ["USER".toList, "LOGNAME".toList, "USERNAME".toList], ∀ user,
      ¬ identity.Names name user) : Invokes identity identity.account

theorem Identity.invokes_currentUser (identity : Identity) :
    identity.Invokes identity.currentUser := by
  let namesOne (name : Text) : Bool := (identity.vars.text? name).any (!·.isEmpty)
  have namesOne_iff (name : Text) : namesOne name = true ↔ ∃ user, identity.Names name user := by
    simp [namesOne, Option.any_eq_true, Names, ← ProcessVariables.text?_eq_some_iff]
  rw [currentUser, List.find?_filterMap]
  cases found : userVariables.find? namesOne with
  | none =>
      have unnamed := List.find?_eq_none.mp found
      refine .account fun name member user names => unnamed name member ?_
      exact (namesOne_iff name).mpr ⟨user, names⟩
  | some name =>
      obtain ⟨isOne, earlier, later, asked, others⟩ := List.find?_eq_some_iff_append.mp found
      obtain ⟨user, names⟩ := (namesOne_iff name).mp isOne
      rw [Option.bind_some, ProcessVariables.text?_eq_some_iff.mpr names.1]
      refine .named asked names fun other member another namesToo => ?_
      have unnamed := others other member
      rw [(namesOne_iff other).mpr ⟨another, namesToo⟩] at unnamed
      cases unnamed

/-! ## What a target means -/

/-- A host of this machine: its address towards itself, its name for itself in any case, or one of
its addresses towards others. -/
inductive Identity.Owns (identity : Identity) (host : Text) : Prop
  | loopback (same : host = "127.0.0.1".toList)
  | localhost (isCase : List.Forall₂ IsCaseOf host "localhost".toList)
  | address (listed : host ∈ identity.addresses)

/-- A target without a host, or with a host of this machine and no user but the invoking one. -/
inductive Target.MeansHere (identity : Identity) (target : Target) : Prop
  | noHost (hostless : target.host = none)
  | ownHost {host user : Text} (hosted : target.host = some host)
    (invoking : identity.currentUser = some user)
    (asked : target.user = none ∨ target.user = some user) (owns : identity.Owns host)

theorem Identity.ownsHost_iff (identity : Identity) (host : Text) :
    identity.ownsHost host = true ↔ identity.Owns host := by
  rw [ownsHost, Bool.or_eq_true, Bool.or_eq_true, beq_iff_eq, List.contains_iff_mem,
    agreesFolded_iff_forall₂ (List.all_eq_true.mp (by decide))]
  constructor
  · rintro ((same | isCase) | listed)
    · exact .loopback same
    · exact .localhost isCase
    · exact .address listed
  · intro owns
    cases owns with
    | loopback same => exact .inl (.inl same)
    | localhost isCase => exact .inl (.inr isCase)
    | address listed => exact .inr listed

/-- What another machine asks for. -/
inductive Item where
  | user
  | password
  | port
  deriving DecidableEq, Repr

namespace Item

/-- The place at which it is asked for. -/
def place : Item → Nat
  | user => 0
  | password => 1
  | port => 2

/-- An item as messages name it. -/
def word : Item → String
  | user => "user"
  | password => "password"
  | port => "port"

/-- For whom an item is required. -/
def whom (user host : Text) : Item → String
  | .user => "remote host " ++ host.toString
  | .password | .port => user.toString ++ "@" ++ host.toString

/-- The fault of a target without the item. -/
def fault (user host : Text) : Item → Config.Fault
  | .user => .userRequired host
  | .password => .passwordRequired user host
  | .port => .portRequired user host

/-- The error for a missing item names it. -/
theorem message_fault (user host : Text) (item : Item) :
    (Error.config (item.fault user host)).message =
      "configuration error: " ++ (item.word ++ " is required for " ++ item.whom user host) := by
  refine congrArg ("configuration error: " ++ ·) ?_
  cases item with
  | user =>
      have words : "user is required for remote host " =
          "user" ++ " is required for " ++ "remote host " := by decide
      rw [word, whom, ← String.append_assoc, ← words]
      rfl
  | password =>
      have words : "password is required for " = "password" ++ " is required for " := by decide
      rw [word, whom, ← words, ← String.append_assoc, ← String.append_assoc]
      rfl
  | port =>
      have words : "port is required for " = "port" ++ " is required for " := by decide
      rw [word, whom, ← words, ← String.append_assoc, ← String.append_assoc]
      rfl

end Item

namespace Target

variable {identity : Identity} {target : Target}

/-- A target without an item, or with an empty one. -/
def Lacks (identity : Identity) (target : Target) : Item → Prop
  | .user => target.effectiveUser identity = none ∨ target.effectiveUser identity = some []
  | .password => target.password = none ∨ target.password = some []
  | .port => target.port = 0

/-- The item is the first that the target lacks. -/
def LacksFirst (identity : Identity) (target : Target) (item : Item) : Prop :=
  target.Lacks identity item ∧
    ∀ earlier : Item, earlier.place < item.place → ¬ target.Lacks identity earlier

/-- What the target gives for the connection to another machine. -/
def given (identity : Identity) (target : Target) : Credentials :=
  ⟨target.host.getD [], (target.effectiveUser identity).getD [], target.password.getD [],
    target.port⟩

/-- The fault of the target without the item. -/
def faultOf (identity : Identity) (target : Target) (item : Item) : Config.Fault :=
  item.fault (target.given identity).user (target.given identity).host

theorem effectiveUser_of_some {user : Text} (asked : target.user = some user) :
    target.effectiveUser identity = some user := by
  rw [effectiveUser, asked]
  rfl

theorem effectiveUser_of_none (unasked : target.user = none) :
    target.effectiveUser identity = identity.currentUser := by
  rw [effectiveUser, unasked]
  rfl

theorem selectsLocal_iff_meansHere :
    target.selectsLocal identity = true ↔ target.MeansHere identity := by
  rw [selectsLocal]
  cases hosted : target.host with
  | none => exact ⟨fun _ => .noHost hosted, fun _ => rfl⟩
  | some host =>
      simp only [Option.any_eq_true, Identity.isLocal, Bool.and_eq_true, beq_iff_eq,
        Identity.ownsHost_iff]
      constructor
      · rintro ⟨user, effective, invoking, owns⟩
        refine .ownHost hosted invoking ?_ owns
        cases asked : target.user with
        | none => exact .inl rfl
        | some given =>
            rw [effectiveUser_of_some asked] at effective
            exact .inr effective
      · intro means
        cases means with
        | noHost hostless => cases hosted.symm.trans hostless
        | @ownHost found user isHost invoking asked owns =>
            obtain rfl := Option.some.inj (hosted.symm.trans isHost)
            refine ⟨user, ?_, invoking, owns⟩
            rcases asked with absent | isUser
            · exact (effectiveUser_of_none absent).trans invoking
            · exact effectiveUser_of_some isUser

theorem nonempty?_eq_none_iff {text : Option Text} :
    nonempty? text = none ↔ text = none ∨ text = some [] := by
  cases text <;> simp [nonempty?]

theorem nonempty?_of_filled {text : Option Text} (filled : ¬ (text = none ∨ text = some [])) :
    nonempty? text = some (text.getD []) := by
  cases text with
  | none => exact absurd (.inl rfl) filled
  | some text =>
      cases text with
      | nil => exact absurd (.inr rfl) filled
      | cons c text => rfl

/-- What is missing first keeps the target from being connected to. -/
theorem credentials_of_lacksFirst {item : Item} (lacks : target.LacksFirst identity item) :
    target.credentials identity = .error (target.faultOf identity item) := by
  obtain ⟨lacks, earlier⟩ := lacks
  cases item with
  | user =>
      rw [credentials, nonempty?_eq_none_iff.mpr lacks]
      rfl
  | password =>
      have user := nonempty?_of_filled (earlier .user (by decide))
      rw [credentials, user, nonempty?_eq_none_iff.mpr lacks]
      rfl
  | port =>
      have user := nonempty?_of_filled (earlier .user (by decide))
      have password := nonempty?_of_filled (earlier .password (by decide))
      rw [credentials, user, password]
      exact if_pos lacks

theorem credentials_of_complete (complete : ∀ item, ¬ target.Lacks identity item) :
    target.credentials identity = .ok (target.given identity) := by
  rw [credentials, nonempty?_of_filled (complete .user), nonempty?_of_filled (complete .password)]
  exact if_neg (complete .port)

/-- Among the items that a target lacks, one is the first. -/
theorem exists_lacksFirst {item : Item} (lacks : target.Lacks identity item) :
    ∃ first, target.LacksFirst identity first := by
  by_cases noUser : target.Lacks identity .user
  · exact ⟨.user, noUser, fun earlier before => absurd before (Nat.not_lt_zero _)⟩
  by_cases noPassword : target.Lacks identity .password
  · refine ⟨.password, noPassword, fun earlier before => ?_⟩
    cases earlier with
    | user => exact noUser
    | password | port => exact absurd before (by decide)
  · refine ⟨.port, ?_, fun earlier before => ?_⟩
    · cases item with
      | user => exact absurd lacks noUser
      | password => exact absurd lacks noPassword
      | port => exact lacks
    · cases earlier with
      | user => exact noUser
      | password => exact noPassword
      | port => exact absurd before (by decide)

end Target

/-! ## What comes of a target -/

namespace Executor

variable {identity : Identity} {id : SessionId} {maxRetries : Nat} {peer : Peer} {target : Target}

theorem ofTarget_of_meansHere (means : target.MeansHere identity) :
    ofTarget identity id maxRetries peer target =
      (.ok (.here .fresh), [localRecord target.host]) := by
  rw [ofTarget, Target.choose, if_pos (Target.selectsLocal_iff_meansHere.mpr means)]

theorem choose_of_not_meansHere (elsewhere : ¬ target.MeansHere identity) :
    target.choose identity = (target.credentials identity).map .elsewhere :=
  if_neg (mt Target.selectsLocal_iff_meansHere.mp elsewhere)

theorem ofTarget_of_lacksFirst (elsewhere : ¬ target.MeansHere identity) {item : Item}
    (lacks : target.LacksFirst identity item) :
    ofTarget identity id maxRetries peer target =
      (.error (.config (target.faultOf identity item)), []) := by
  rw [ofTarget, choose_of_not_meansHere elsewhere, Target.credentials_of_lacksFirst lacks]
  rfl

/-- The session that has just connected. -/
def connected (id : SessionId) (maxRetries : Nat) (peer : Peer) (credentials : Credentials) :
    Session :=
  ⟨id, credentials.remote, true, 0, maxRetries, peer.skip 1 0, [.connected]⟩

/-- A target that lacks nothing is connected to, and the other side decides. -/
theorem ofTarget_of_refused (elsewhere : ¬ target.MeansHere identity)
    (complete : ∀ item, ¬ target.Lacks identity item) {fault : Fault}
    (refused : peer.refusalAt 0 = some fault) :
    (ofTarget identity id maxRetries peer target).1 =
      .error (.connection (.cannotConnect (target.given identity).remote fault)) := by
  rw [ofTarget, choose_of_not_meansHere elsewhere, Target.credentials_of_complete complete]
  simp only [Except.map]
  rw [Session.reconnect_of_refused refused]
  rfl

theorem ofTarget_of_accepted (elsewhere : ¬ target.MeansHere identity)
    (complete : ∀ item, ¬ target.Lacks identity item) (accepted : peer.refusalAt 0 = none) :
    (ofTarget identity id maxRetries peer target).1 =
      .ok (.elsewhere (connected id maxRetries peer (target.given identity))) := by
  rw [ofTarget, choose_of_not_meansHere elsewhere, Target.credentials_of_complete complete]
  simp only [Except.map]
  rw [Session.reconnect_of_accepted accepted]
  rfl

/-- What comes of a target, by what it means, what it lacks and what the other side does. -/
inductive Comes (identity : Identity) (id : SessionId) (maxRetries : Nat) (peer : Peer)
    (target : Target) : Except Error Executor → Prop
  | here (means : target.MeansHere identity) :
    Comes identity id maxRetries peer target (.ok (.here .fresh))
  | lacking {item : Item} (elsewhere : ¬ target.MeansHere identity)
    (lacks : target.LacksFirst identity item) :
    Comes identity id maxRetries peer target (.error (.config (target.faultOf identity item)))
  | refused {fault : Fault} (elsewhere : ¬ target.MeansHere identity)
    (complete : ∀ item, ¬ target.Lacks identity item)
    (refused : peer.refusalAt 0 = some fault) :
    Comes identity id maxRetries peer target
      (.error (.connection (.cannotConnect (target.given identity).remote fault)))
  | accepted (elsewhere : ¬ target.MeansHere identity)
    (complete : ∀ item, ¬ target.Lacks identity item) (accepted : peer.refusalAt 0 = none) :
    Comes identity id maxRetries peer target
      (.ok (.elsewhere (connected id maxRetries peer (target.given identity))))

theorem comes_ofTarget (identity : Identity) (id : SessionId) (maxRetries : Nat) (peer : Peer)
    (target : Target) : Comes identity id maxRetries peer target
      (ofTarget identity id maxRetries peer target).1 := by
  by_cases means : target.MeansHere identity
  · rw [ofTarget_of_meansHere means]
    exact .here means
  by_cases lacks : ∃ item, target.Lacks identity item
  · obtain ⟨item, lacks⟩ := lacks
    obtain ⟨first, lacksFirst⟩ := Target.exists_lacksFirst lacks
    rw [ofTarget_of_lacksFirst means lacksFirst]
    exact .lacking means lacksFirst
  · have complete := not_exists.mp lacks
    cases decided : peer.refusalAt 0 with
    | some fault =>
        rw [ofTarget_of_refused means complete decided]
        exact .refused means complete decided
    | none =>
        rw [ofTarget_of_accepted means complete decided]
        exact .accepted means complete decided

theorem exists_here_iff :
    (∃ backend, (ofTarget identity id maxRetries peer target).1 = .ok (.here backend)) ↔
      target.MeansHere identity := by
  constructor
  · rintro ⟨backend, isHere⟩
    have comes := comes_ofTarget identity id maxRetries peer target
    rw [isHere] at comes
    cases comes with
    | here means => exact means
  · intro means
    exact ⟨_, congrArg Prod.fst (ofTarget_of_meansHere means)⟩

theorem eq_config_iff {fault : Config.Fault} :
    (ofTarget identity id maxRetries peer target).1 = .error (.config fault) ↔
      ¬ target.MeansHere identity ∧
        ∃ item, target.LacksFirst identity item ∧ fault = target.faultOf identity item := by
  constructor
  · intro fails
    have comes := comes_ofTarget identity id maxRetries peer target
    rw [fails] at comes
    cases comes with
    | lacking elsewhere lacks => exact ⟨elsewhere, _, lacks, rfl⟩
  · rintro ⟨elsewhere, item, lacks, rfl⟩
    exact congrArg Prod.fst (ofTarget_of_lacksFirst elsewhere lacks)

theorem eq_connection_iff {refusal : ConnectionFault} :
    (ofTarget identity id maxRetries peer target).1 = .error (.connection refusal) ↔
      ¬ target.MeansHere identity ∧ (∀ item, ¬ target.Lacks identity item) ∧
        ∃ fault, peer.refusalAt 0 = some fault ∧
          refusal = .cannotConnect (target.given identity).remote fault := by
  constructor
  · intro fails
    have comes := comes_ofTarget identity id maxRetries peer target
    rw [fails] at comes
    cases comes with
    | refused elsewhere complete refused => exact ⟨elsewhere, complete, _, refused, rfl⟩
  · rintro ⟨elsewhere, complete, fault, refused, rfl⟩
    exact ofTarget_of_refused elsewhere complete refused

/-- Nothing depends on the other side just where it is not asked to connect. -/
theorem independent_iff :
    (∀ other, ofTarget identity id maxRetries other target =
        ofTarget identity id maxRetries peer target) ↔
      target.MeansHere identity ∨ ∃ item, target.Lacks identity item := by
  constructor
  · intro same
    by_contra neither
    obtain ⟨elsewhere, complete⟩ := not_or.mp neither
    rw [not_exists] at complete
    have fails : (ofTarget identity id maxRetries ⟨[some []], []⟩ target).1 = _ :=
      ofTarget_of_refused elsewhere complete rfl
    have succeeds : (ofTarget identity id maxRetries ⟨[], []⟩ target).1 = _ :=
      ofTarget_of_accepted elsewhere complete rfl
    rw [same] at fails succeeds
    cases fails.symm.trans succeeds
  · intro settled other
    by_cases means : target.MeansHere identity
    · rw [ofTarget_of_meansHere means, ofTarget_of_meansHere means]
    · obtain ⟨item, lacks⟩ := settled.resolve_left means
      obtain ⟨first, lacksFirst⟩ := Target.exists_lacksFirst lacks
      rw [ofTarget_of_lacksFirst means lacksFirst, ofTarget_of_lacksFirst means lacksFirst]

/-! ## Calls -/

/-- A call, on the machine as it is when the call is made. -/
structure Asked where
  host : Local.Host
  vars : ProcessVariables
  call : Run.Call
  options : Run.Options

/-- The same call, on whatever machine. -/
def Asked.SameCall (asked other : Asked) : Prop :=
  asked.call = other.call ∧ asked.options = other.options

/-- What calls give one after another, with the log records that they leave. -/
def answers : List Asked → Executor → List (Except Error Run.Result × List Log.Record)
  | [], _ => []
  | asked :: more, executor =>
    let (outcome, records, after) :=
      executor.run asked.host asked.vars asked.call asked.options
    (outcome, records) :: answers more after

/-- A call on another machine makes no use of this one, and the next one is made there too. -/
theorem run_elsewhere {asked other : Asked} (same : asked.SameCall other) (session : Session) :
    ∃ outcome records after, ∀ turn ∈ [asked, other],
      (elsewhere session).run turn.host turn.vars turn.call turn.options =
        (outcome, records, elsewhere after) := by
  obtain ⟨sameCall, sameOptions⟩ := same
  refine ⟨_, _, _, List.forall_mem_cons.mpr ⟨rfl, List.forall_mem_singleton.mpr ?_⟩⟩
  rw [← sameCall, ← sameOptions]
  rfl

/-- No calls on another machine make any use of this one. -/
theorem answers_elsewhere {asked others : List Asked}
    (same : List.Forall₂ Asked.SameCall asked others) (session : Session) :
    answers asked (.elsewhere session) = answers others (.elsewhere session) := by
  induction same generalizing session with
  | nil => rfl
  | @cons asked other more others sameCall _ ih =>
      obtain ⟨outcome, records, after, runs⟩ := run_elsewhere sameCall session
      rw [answers, answers, runs asked (by simp), runs other (by simp)]
      exact congrArg ((outcome, records) :: ·) (ih after)

/-! ## Choosing -/

/-- Commands run on this machine just if the target means it. Otherwise the first item that is
missing is named without a connection, and where none is missing the other side decides. What runs
elsewhere makes no use of this machine. -/
theorem side_is_chosen (identity : Identity) (id : SessionId) (maxRetries : Nat) (peer : Peer)
    (target : Target) :
    let outcome := (ofTarget identity id maxRetries peer target).1
    identity.Invokes identity.currentUser ∧
      (∀ user, target.user = some user → target.effectiveUser identity = some user) ∧
      (target.user = none → target.effectiveUser identity = identity.currentUser) ∧
      ((∃ backend, outcome = .ok (.here backend)) ↔ target.selectsLocal identity = true) ∧
      (target.selectsLocal identity = true ↔ target.MeansHere identity) ∧
      (∀ fault, outcome = .error (.config fault) ↔ ¬ target.MeansHere identity ∧
        ∃ item, target.LacksFirst identity item ∧ fault = target.faultOf identity item) ∧
      (∀ item, ∃ whom, (Error.config (target.faultOf identity item)).message =
        "configuration error: " ++ (item.word ++ " is required for " ++ whom)) ∧
      ((∀ other, ofTarget identity id maxRetries other target =
          ofTarget identity id maxRetries peer target) ↔
        target.MeansHere identity ∨ ∃ item, target.Lacks identity item) ∧
      (∀ refusal, outcome = .error (.connection refusal) ↔ ¬ target.MeansHere identity ∧
        (∀ item, ¬ target.Lacks identity item) ∧ ∃ fault, peer.refusalAt 0 = some fault ∧
          refusal = .cannotConnect (target.given identity).remote fault) ∧
      ∀ executor, outcome = .ok executor → ¬ target.MeansHere identity →
        ∀ asked others, List.Forall₂ Asked.SameCall asked others →
          executor.answers asked = executor.answers others := by
  refine ⟨identity.invokes_currentUser, fun _ asked => Target.effectiveUser_of_some asked,
    Target.effectiveUser_of_none, exists_here_iff.trans Target.selectsLocal_iff_meansHere.symm,
    Target.selectsLocal_iff_meansHere, fun _ => eq_config_iff,
    fun item => ⟨_, item.message_fault _ _⟩, independent_iff, fun _ => eq_connection_iff, ?_⟩
  intro executor isBuilt elsewhere asked others same
  have comes := comes_ofTarget identity id maxRetries peer target
  rw [isBuilt] at comes
  cases comes with
  | here means => exact absurd means elsewhere
  | accepted => exact answers_elsewhere same _

/-- The first variable is empty and the second names the user. A target on the machine's own name
means this machine for that user, and lacks a password for the one of the account. -/
theorem own_name_is_here :
    let vars : ProcessVariables :=
      [(Utf8.encode "USER".toList, []), (Utf8.encode "LOGNAME".toList, Utf8.encode "omm".toList)]
    let identity : Identity := ⟨vars, some "root".toList, []⟩
    let target : Target := ⟨some "LocalHost".toList, none, none, defaultPort⟩
    let other : Target := { target with user := some "root".toList }
    identity.Invokes (some "omm".toList) ∧
      (∃ backend, (ofTarget identity .first 5 ⟨[], []⟩ target).1 = .ok (.here backend)) ∧
      (ofTarget identity .first 5 ⟨[], []⟩ other).1 =
        .error (.config (.passwordRequired "root".toList "LocalHost".toList)) := by
  intro vars identity target other
  have invoking : identity.currentUser = some "omm".toList := by decide +kernel
  obtain ⟨invokes, -, -, isHere, -⟩ := side_is_chosen identity .first 5 ⟨[], []⟩ target
  obtain ⟨-, -, -, -, -, fails, -⟩ := side_is_chosen identity .first 5 ⟨[], []⟩ other
  refine ⟨invoking ▸ invokes, isHere.mpr (by decide +kernel), (fails _).mpr ⟨?_, .password, ?_, rfl⟩⟩
  · rw [← Target.selectsLocal_iff_meansHere]
    decide +kernel
  · refine ⟨.inl rfl, fun earlier before => ?_⟩
    cases earlier with
    | user => exact fun lacks => by rcases lacks with lacks | lacks <;> cases lacks
    | password | port => exact absurd before (by decide)

end Executor

end Backend

end Errand

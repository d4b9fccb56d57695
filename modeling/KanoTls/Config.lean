import KanoTls.Inbound

/-! The server's configuration: what `validate_server_config` accepts, and the outbound that
`resolve_server_outbound` makes of it. What is only logged is left out, and with it the
fields of a session that are read for a warning alone. -/
namespace KanoTls.Config
open Text IpText
open Inbound (isWhitespace)

/- A number that is not an unsigned one of 64 bits is `number`. -/
inductive Json where
  | null
  | bool (b : Bool)
  | unsigned (n : Nat)
  | number
  | string (text : Text)
  | array (items : List Json)
  | object (fields : List (Text × Json))

def Json.get (key : Text) : Json → Option Json
  | .object fields => (fields.find? (fun field => field.1 == key)).map (·.2)
  | _ => none

def Json.asStr : Json → Option Text
  | .string text => some text
  | _ => none

def Json.asU64 : Json → Option Nat
  | .unsigned n => some n
  | _ => none

structure LogConfig where
  level : Option Text

structure RoutingRule where
  inbound : List Text
  authUser : Option (List Text)
  outbound : Text
  deriving DecidableEq, Repr

structure Routing where
  rules : List RoutingRule

structure User where
  name : Text
  password : Text
  deriving DecidableEq, Repr

structure SessionConfig where
  maxStreamsPerSession : Nat := 256
  idleTimeoutSecs : Nat := 75

structure CamouflageConfig where
  host : Text
  port : UInt16

structure KanotlsServerSettings where
  users : List User
  camouflage : CamouflageConfig
  session : Option SessionConfig

structure ServerInbound where
  tag : Option Text
  port : UInt16
  protocol : Text
  settings : KanotlsServerSettings

structure Outbound where
  tag : Option Text
  protocol : Text
  settings : Option Json

structure ServerConfig where
  log : Option LogConfig
  inbounds : List ServerInbound
  outbounds : List Outbound
  routing : Option Routing

section Checks

abbrev Result := Except String

def ensure (ok : Bool) (text : String) : Result Unit := if ok then .ok () else .error text

def required {α : Type} (value : Option α) (text : String) : Result α :=
  match value with
  | none => .error text
  | some value => .ok value

def checkEach {α : Type} (check : Nat → α → Result Unit) : Nat → List α → Result Unit
  | _,[] => .ok ()
  | idx,item::rest => do
    check idx item
    checkEach check (idx + 1) rest

def indexed (field : String) (idx : Nat) : String := field ++ "[" ++ toString idx ++ "]"

def quoted (text : Text) : String := "'" ++ String.ofList text ++ "'"

def trim (text : Text) : Text := ((text.dropWhile isWhitespace).reverse.dropWhile isWhitespace).reverse

def toAsciiLowercase (text : Text) : Text := text.map Char.toLower

end Checks

section Shared

def maxStreamsPerSessionLimit : Nat := 4096
def maxIdleTimeoutSecs : Nat := 3600

def validateSessionConfig (path : String) (session : SessionConfig) : Result Unit := do
  ensure (session.maxStreamsPerSession != 0 && session.maxStreamsPerSession ≤ maxStreamsPerSessionLimit)
    (path ++ ": session.max_streams_per_session must be in 1..=" ++ toString maxStreamsPerSessionLimit)
  ensure (session.idleTimeoutSecs != 0 && session.idleTimeoutSecs ≤ maxIdleTimeoutSecs)
    (path ++ ": session.idle_timeout_secs must be in 1..=" ++ toString maxIdleTimeoutSecs)

def placeholders : List Text :=
  [['c','h','a','n','g','e','_','m','e'],['p','l','a','c','e','h','o','l','d','e','r'],
    ['r','e','p','l','a','c','e','_','m','e'],
    ['y','o','u','r','_','p','a','s','s','w','o','r','d','_','h','e','r','e'],['f','i','l','l','_','m','e']]

def isPlaceholderPassword (password : Text) : Bool :=
  placeholders.any (fun mark => (toAsciiLowercase password).tails.any (mark.isPrefixOf ·))

def logLevels : List Text :=
  [['t','r','a','c','e'],['d','e','b','u','g'],['i','n','f','o'],['w','a','r','n'],['e','r','r','o','r']]

def validateLogConfig (log : LogConfig) : Result Unit :=
  match log.level with
  | none => .ok ()
  | some level => ensure (logLevels.contains (toAsciiLowercase (trim level)))
      ("log.level must be one of trace/debug/info/warn/error (got " ++ quoted (toAsciiLowercase (trim level)) ++ ")")

def isLdh (byte : UInt8) : Bool :=
  (48 ≤ byte && byte ≤ 57) || (65 ≤ byte && byte ≤ 90) || (97 ≤ byte && byte ≤ 122) || byte == 45

def validateLabel (field : String) (label : Text) : Result Unit := do
  let bytes := toUtf8 label
  ensure (!bytes.isEmpty && bytes.length ≤ 63) (field ++ ": invalid DNS label length")
  ensure (bytes.head? != some 45 && bytes.getLast? != some 45) (field ++ ": DNS labels must not start or end with '-'")
  ensure (bytes.all isLdh) (field ++ ": DNS hostname must be ASCII LDH form")

def validateDnsHostname (host : Text) (field kind : String) : Result Unit := do
  ensure (host.getLast? != some '.') (field ++ ": DNS hostname must not have a trailing dot")
  ensure (!host.isEmpty && (toUtf8 host).length ≤ 253) (field ++ ": invalid DNS hostname length")
  ensure (parseIpAddr host).isNone (field ++ ": IP literals are not supported for " ++ kind)
  checkEach (fun _ label => validateLabel field label) 0 (host.splitOn '.')

/- The users that a rule may name: those of the inbounds it refers to. -/
def knownUsers (inboundUsers : Text → Option (List Text)) (rule : RoutingRule) : List Text :=
  (rule.inbound.filterMap inboundUsers).flatten

def validateAuthUser (path : String) (known : List Text) (authUser : Option (List Text)) : Result Unit :=
  match authUser with
  | none => .ok ()
  | some users => do
    ensure (!users.isEmpty) (path ++ ": auth_user must not be empty (omit it to match all users)")
    checkEach (fun _ user => ensure (known.contains user)
      (path ++ ": auth_user " ++ quoted user ++ " does not match any user of the referenced inbounds")) 0 users

def validateRoutingRule (inboundTags outboundTags : List Text) (inboundUsers : Text → Option (List Text)) (idx : Nat)
    (rule : RoutingRule) : Result Unit := do
  let path := indexed "routing.rules" idx
  ensure (!rule.inbound.isEmpty) (path ++ ": inbound must not be empty")
  ensure (!(trim rule.outbound).isEmpty) (path ++ ": outbound is required")
  checkEach (fun _ tag => ensure (inboundTags.contains tag)
    (path ++ ": inbound " ++ quoted tag ++ " does not match any configured inbound tag")) 0 rule.inbound
  ensure (outboundTags.contains rule.outbound)
    (path ++ ": outbound " ++ quoted rule.outbound ++ " does not match any configured outbound tag")
  validateAuthUser path (knownUsers inboundUsers rule) rule.authUser

def validateRoutingRules (routing : Routing) (inboundTags outboundTags : List Text)
    (inboundUsers : Text → Option (List Text)) :
    Result Unit :=
  checkEach (validateRoutingRule inboundTags outboundTags inboundUsers) 0 routing.rules

def ruleMatches (inboundTag : Text) (authUser : Option Text) (rule : RoutingRule) : Bool :=
  rule.inbound.any (· == inboundTag) &&
    match rule.authUser,authUser with
    | none,_ => true
    | some users,some user => users.isEmpty || users.any (· == user)
    | some users,none => users.isEmpty

def findRoutingRule (routing : Option Routing) (inboundTag authUser : Option Text) : Option RoutingRule := do
  let inboundTag ← inboundTag
  let routing ← routing
  routing.rules.find? (ruleMatches inboundTag authUser)

end Shared

section Server

def kanotls : Text := ['k','a','n','o','t','l','s']
def direct : Text := ['d','i','r','e','c','t']
def socks5 : Text := ['s','o','c','k','s','5']
def address : Text := ['a','d','d','r','e','s','s']
def port : Text := ['p','o','r','t']
def username : Text := ['u','s','e','r','n','a','m','e']
def password : Text := ['p','a','s','s','w','o','r','d']

def skeleton (configPath : String) : String :=
  "Detected unmodified default skeleton config.\nPlease edit " ++ configPath ++
    " and replace the placeholder password.\nGenerate a secure password: openssl rand -base64 48"

def validateUsers (path configPath : String) : Nat → List Text → List Text → List User → Result Unit
  | _,_,_,[] => .ok ()
  | idx,seenNames,seenPasswords,user::rest => do
    let userPath := indexed (path ++ ".settings.users") idx
    ensure (!(trim user.name).isEmpty) (userPath ++ ": name must not be empty")
    ensure (!seenNames.contains user.name) (userPath ++ ": duplicate user name " ++ quoted user.name)
    ensure (!isPlaceholderPassword user.password) (skeleton configPath)
    ensure (32 ≤ (toUtf8 user.password).length)
      (userPath ++ ": password must be at least 32 bytes (got " ++ toString (toUtf8 user.password).length ++ ")")
    ensure (!seenPasswords.contains user.password)
      (userPath ++ ": duplicate password (user " ++ quoted user.name ++ "); each user must have a distinct password")
    validateUsers path configPath (idx + 1) (user.name::seenNames) (user.password::seenPasswords) rest

def validateServerInbound (configPath : String) (idx : Nat) (inbound : ServerInbound) : Result Unit := do
  let path := indexed "inbounds" idx
  ensure (inbound.protocol == kanotls) (path ++ ": only 'kanotls' protocol is supported for server inbounds")
  ensure (inbound.port != 0) (path ++ ": inbound port must not be 0")
  let s := inbound.settings
  ensure (!s.users.isEmpty) (path ++ ": settings.users must not be empty")
  validateUsers path configPath 0 [] [] s.users
  ensure (!s.camouflage.host.isEmpty) (path ++ ": camouflage.host is required")
  validateDnsHostname s.camouflage.host (path ++ ".camouflage.host") "camouflage host"
  ensure (s.camouflage.port != 0) (path ++ ": camouflage.port is required")
  match s.session with
  | none => .ok ()
  | some session => validateSessionConfig path session

def nonEmpty (settings : Json) (key : Text) : Option Text := ((settings.get key).bind Json.asStr).filter
    (fun text => !text.isEmpty)

def validateSocks5 (path : String) (settings : Option Json) : Result Unit := do
  let s ← required settings (path ++ ": socks5 requires settings")
  let _ ← required (nonEmpty s address) (path ++ ": socks5 requires non-empty settings.address")
  let port ← required ((s.get port).bind Json.asU64) (path ++ ": socks5 requires settings.port")
  ensure (1 ≤ port && port ≤ 65535) (path ++ ": socks5 settings.port must be in 1..=65535 (got " ++ toString port ++ ")")
  let hasUsername := (nonEmpty s username).isSome
  let hasPassword := (nonEmpty s password).isSome
  ensure (!(hasUsername && !hasPassword)) (path ++ ": socks5 has username but missing password")
  ensure (!(!hasUsername && hasPassword)) (path ++ ": socks5 has password but missing username")

def validateServerOutbound (idx : Nat) (outbound : Outbound) : Result Unit :=
  let path := indexed "outbounds" idx
  if outbound.protocol = direct then .ok ()
  else if outbound.protocol = socks5 then validateSocks5 path outbound.settings
  else .error (path ++ ": unsupported protocol " ++ quoted outbound.protocol)

/- The map from tags to users: of two inbounds with one tag the later one stays. -/
def inboundUserMap (inbounds : List ServerInbound) (tag : Text) : Option (List Text) :=
  (inbounds.filter (fun inbound => inbound.tag == some tag)).getLast?.map (fun inbound => inbound.settings.users.map (·.name))

def validateRouting (config : ServerConfig) : Result Unit :=
  match config.routing with
  | none => .ok ()
  | some routing => validateRoutingRules routing (config.inbounds.filterMap (·.tag)) (config.outbounds.filterMap (·.tag))
      (inboundUserMap config.inbounds)

def validateLog (log : Option LogConfig) : Result Unit :=
  match log with
  | none => .ok ()
  | some log => validateLogConfig log

def validateServerConfig (config : ServerConfig) (configPath : String) : Result Unit := do
  ensure (!config.inbounds.isEmpty) "at least one inbound is required"
  validateLog config.log
  checkEach (validateServerInbound configPath) 0 config.inbounds
  checkEach validateServerOutbound 0 config.outbounds
  validateRouting config

/- The outbound of the relay; its timeouts are constants. -/
inductive RelayOutbound where
  | direct
  | socks5 (address : Text) (username password : Option Text)
  deriving DecidableEq, Repr

def buildOutbound (outbound : Outbound) : Result RelayOutbound :=
  if outbound.protocol = direct then .ok .direct
  else if outbound.protocol = socks5 then do
    let s ← required outbound.settings "socks5 outbound requires settings"
    let host ← required ((s.get address).bind Json.asStr) "socks5 outbound requires settings.address"
    let port ← required ((s.get port).bind Json.asU64) "socks5 outbound requires settings.port"
    .ok (.socks5 (host ++ ':'::decimal port) (nonEmpty s username) (nonEmpty s password))
  else .error ("unsupported outbound protocol: " ++ String.ofList outbound.protocol)

def selectOutbound (config : ServerConfig) (inboundTag authUser : Option Text) : Result Outbound :=
  match findRoutingRule config.routing inboundTag authUser with
  | some rule => required (config.outbounds.find? (fun outbound => outbound.tag == some rule.outbound))
      ("outbound tag " ++ quoted rule.outbound ++ " not found in configured outbounds")
  | none => required config.outbounds.head? "no outbounds configured and no routing rule matched"

def resolveServerOutbound (config : ServerConfig) (inboundTag authUser : Option Text) : Result RelayOutbound := do
  let outbound ← selectOutbound config inboundTag authUser
  buildOutbound outbound

end Server

section Accepted
variable {α β : Type} {config : ServerConfig} {configPath : String} {text : String}

theorem bindOk {x : Result α} {f : α → Result β} {b : β} (ran : x >>= f = .ok b) : ∃ a, x = .ok a ∧ f a = .ok b := by
  cases x with
  | error e => contradiction
  | ok a => exact ⟨a,rfl,ran⟩

theorem ensured {ok : Bool} (held : ensure ok text = .ok ()) : ok = true := by
  cases ok with
  | false => contradiction
  | true => rfl

theorem requiredOk {value : Option α} {a : α} (found : required value text = .ok a) : value = some a := by
  cases value with
  | none => contradiction
  | some b => exact congrArg some (Except.ok.inj found)

theorem checkedEach {check : Nat → α → Result Unit} {idx : Nat} {items : List α}
    (held : checkEach check idx items = .ok ()) :
    ∀ item ∈ items, ∃ i, check i item = .ok () := by
  induction items generalizing idx with
  | nil =>
    intro item none
    exact absurd none List.not_mem_nil
  | cons first rest ih =>
    obtain ⟨_,here,later⟩ := bindOk held
    intro item member
    rcases List.mem_cons.mp member with rfl | behind
    · exact ⟨idx,here⟩
    · exact ih later item behind

structure Accepted (config : ServerConfig) : Prop where
  inbounds : config.inbounds ≠ []
  users : ∀ inbound ∈ config.inbounds, inbound.settings.users ≠ []
  outbounds : ∀ outbound ∈ config.outbounds, ∃ idx, validateServerOutbound idx outbound = .ok ()
  rules : ∀ routing, config.routing = some routing → ∀ rule ∈ routing.rules,
    rule.outbound ∈ config.outbounds.filterMap (·.tag) ∧ rule.authUser ≠ some []

theorem usersPresent {idx : Nat} {inbound : ServerInbound} (held : validateServerInbound configPath idx inbound = .ok ()) :
    inbound.settings.users ≠ [] := by
  obtain ⟨_,_,rest⟩ := bindOk held
  obtain ⟨_,_,rest⟩ := bindOk rest
  obtain ⟨_,present,_⟩ := bindOk rest
  intro none
  have some := ensured present
  rw [none] at some
  contradiction

theorem ruleHeld {inboundTags outboundTags : List Text} {inboundUsers : Text → Option (List Text)} {idx : Nat}
    {rule : RoutingRule}
    (held : validateRoutingRule inboundTags outboundTags inboundUsers idx rule = .ok ()) :
    rule.outbound ∈ outboundTags ∧ rule.authUser ≠ some [] := by
  obtain ⟨_,_,rest⟩ := bindOk held
  obtain ⟨_,_,rest⟩ := bindOk rest
  obtain ⟨_,_,rest⟩ := bindOk rest
  obtain ⟨_,known,users⟩ := bindOk rest
  refine ⟨List.contains_iff_mem.mp (ensured known),fun none => ?_⟩
  rw [none] at users
  obtain ⟨_,nonempty,_⟩ := bindOk users
  contradiction

theorem validated (accepted : validateServerConfig config configPath = .ok ()) : Accepted config := by
  obtain ⟨_,present,rest⟩ := bindOk accepted
  obtain ⟨_,_,rest⟩ := bindOk rest
  obtain ⟨_,inbounds,rest⟩ := bindOk rest
  obtain ⟨_,outbounds,routed⟩ := bindOk rest
  refine ⟨fun none => ?_,fun inbound member => ?_,fun outbound member => checkedEach outbounds outbound member,
    fun routing found rule member => ?_⟩
  · have some := ensured present
    rw [none] at some
    contradiction
  · obtain ⟨_,held⟩ := checkedEach inbounds inbound member
    exact usersPresent held
  · rw [validateRouting,found] at routed
    obtain ⟨_,held⟩ := checkedEach routed rule member
    exact ruleHeld held

theorem outboundBuilds {idx : Nat} {outbound : Outbound} (held : validateServerOutbound idx outbound = .ok ()) :
    ∃ relay, buildOutbound outbound = .ok relay := by
  rw [validateServerOutbound] at held
  rw [buildOutbound]
  by_cases isDirect : outbound.protocol = direct
  · rw [if_pos isDirect]
    exact ⟨.direct,rfl⟩
  · rw [if_neg isDirect] at held ⊢
    by_cases isSocks5 : outbound.protocol = socks5
    · rw [if_pos isSocks5] at held ⊢
      obtain ⟨s,settings,rest⟩ := bindOk held
      obtain ⟨host,named,rest⟩ := bindOk rest
      obtain ⟨number,numbered,_⟩ := bindOk rest
      have addressed : (s.get address).bind Json.asStr = some host :=
        (Option.filter_eq_some_iff.mp (requiredOk named)).1
      rw [requiredOk settings]
      refine ⟨.socks5 (host ++ ':'::decimal number) (nonEmpty s username) (nonEmpty s password),?_⟩
      show (required ((s.get address).bind Json.asStr) _ >>= fun host => required ((s.get port).bind Json.asU64) _ >>= fun number =>
        Except.ok (RelayOutbound.socks5 (host ++ ':'::decimal number) (nonEmpty s username) (nonEmpty s password))) = _
      rw [addressed,requiredOk numbered]
      rfl
    · rw [if_neg isSocks5] at held
      contradiction

end Accepted

section Routes
variable {config : ServerConfig} {configPath : String} {inboundTag authUser : Option Text} {chosen : Outbound}

/- A rule without users is for every user of its inbounds. -/
def Rules (rule : RoutingRule) (inboundTag authUser : Option Text) : Prop :=
  (∃ tag ∈ rule.inbound, inboundTag = some tag) ∧
    (rule.authUser = none ∨ ∃ users user, rule.authUser = some users ∧ authUser = some user ∧ user ∈ users)

def FirstOf {α : Type} (p : α → Prop) (items : List α) (item : α) : Prop :=
  ∃ before after, items = before ++ item::after ∧ p item ∧ ∀ other ∈ before, ¬ p other

/- The outbound that is meant: the first with the tag of the first rule that matches, or the first of all. -/
def Chosen (config : ServerConfig) (inboundTag authUser : Option Text) (chosen : Outbound) : Prop :=
  (∃ routing rule, config.routing = some routing ∧ FirstOf (fun rule => Rules rule inboundTag authUser) routing.rules rule ∧
    FirstOf (fun outbound => outbound.tag = some rule.outbound) config.outbounds chosen) ∨
  ((∀ routing, config.routing = some routing → ∀ rule ∈ routing.rules, ¬ Rules rule inboundTag authUser) ∧
    config.outbounds.head? = some chosen)

theorem firstFound {α : Type} {p : α → Prop} {test : α → Bool} {items : List α} {item : α}
    (same : ∀ item ∈ items, test item = true ↔ p item)
    (found : items.find? test = some item) : FirstOf p items item := by
  obtain ⟨here,before,after,split,earlier⟩ := List.find?_eq_some_iff_append.mp found
  have inside : ∀ other ∈ before, other ∈ items := fun other member => split ▸ List.mem_append_left _ member
  have this : item ∈ items := split ▸ List.mem_append_right _ List.mem_cons_self
  refine ⟨before,after,split,(same item this).mp here,fun other member no => ?_⟩
  have fails := earlier other member
  rw [(same other (inside other member)).mpr no] at fails
  contradiction

theorem ruleMatchesIff {rule : RoutingRule} {tag : Text} (users : rule.authUser ≠ some []) :
    ruleMatches tag authUser rule = true ↔ Rules rule (some tag) authUser := by
  have inbound : rule.inbound.any (· == tag) = true ↔ ∃ other ∈ rule.inbound, some tag = some other := by
    rw [List.any_eq_true]
    constructor
    · rintro ⟨other,member,same⟩
      exact ⟨other,member,congrArg some (eq_of_beq same).symm⟩
    · rintro ⟨other,member,same⟩
      exact ⟨other,member,beq_iff_eq.mpr (Option.some.inj same).symm⟩
  unfold ruleMatches
  rw [Bool.and_eq_true,inbound,Rules]
  refine and_congr_right (fun _ => ?_)
  cases listed : rule.authUser with
  | none => exact ⟨fun _ => .inl rfl,fun _ => by cases authUser <;> rfl⟩
  | some names =>
    have nonempty : names.isEmpty = false := by
      cases names with
      | nil => exact absurd listed users
      | cons first rest => rfl
    cases authUser with
    | none =>
      dsimp only
      rw [nonempty]
      refine ⟨fun no => ?_,?_⟩
      · contradiction
      · rintro (no | ⟨_,_,_,no,_⟩) <;> contradiction
    | some user =>
      dsimp only
      rw [nonempty,Bool.false_or,List.any_eq_true]
      constructor
      · rintro ⟨other,member,same⟩
        exact .inr ⟨names,user,rfl,rfl,(eq_of_beq same) ▸ member⟩
      · rintro (no | ⟨_,_,same,other,member⟩)
        · contradiction
        · cases same
          cases other
          exact ⟨user,member,beq_iff_eq.mpr rfl⟩

theorem chosenMember (isChosen : Chosen config inboundTag authUser chosen) : chosen ∈ config.outbounds := by
  rcases isChosen with ⟨_,_,_,_,before,after,split,_,_⟩ | ⟨_,first⟩
  · rw [split]
    exact List.mem_append_right _ List.mem_cons_self
  · exact List.mem_of_head? first

theorem selected (accepted : Accepted config) (nonempty : config.outbounds ≠ []) (inboundTag authUser : Option Text) :
    ∃ chosen, selectOutbound config inboundTag authUser = .ok chosen ∧ Chosen config inboundTag authUser chosen := by
  obtain ⟨first,rest,list⟩ := List.exists_cons_of_ne_nil nonempty
  have fallback : ∀ (_ : ∀ routing, config.routing = some routing → ∀ rule ∈ routing.rules, ¬ Rules rule inboundTag authUser)
      (_ : findRoutingRule config.routing inboundTag authUser = none),
      ∃ chosen, selectOutbound config inboundTag authUser = .ok chosen ∧ Chosen config inboundTag authUser chosen := by
    intro none missed
    refine ⟨first,?_,.inr ⟨none,by rw [list]; rfl⟩⟩
    rw [selectOutbound,missed,list]
    rfl
  cases inboundTag with
  | none =>
    refine fallback (fun _ _ _ _ no => ?_) rfl
    obtain ⟨⟨_,_,same⟩,_⟩ := no
    contradiction
  | some tag =>
    cases routed : config.routing with
    | none =>
      rw [routed] at fallback
      refine fallback (fun _ same => ?_) rfl
      contradiction
    | some routing =>
      have same : ∀ rule ∈ routing.rules, ruleMatches tag authUser rule = true ↔ Rules rule (some tag) authUser :=
        fun rule member => ruleMatchesIff (accepted.rules routing routed rule member).2
      cases found : routing.rules.find? (ruleMatches tag authUser) with
      | none =>
        refine fallback (fun other known rule member matched => ?_) (by rw [routed]; exact found)
        rw [routed] at known
        cases known
        exact List.find?_eq_none.mp found rule member ((same rule member).mpr matched)
      | some rule =>
        have held := (accepted.rules routing routed rule (List.mem_of_find?_eq_some found)).1
        obtain ⟨outbound,member,tagged⟩ := List.mem_filterMap.mp held
        cases taken : config.outbounds.find? (fun outbound => outbound.tag == some rule.outbound) with
        | none => exact absurd (beq_iff_eq.mpr tagged) (List.find?_eq_none.mp taken outbound member)
        | some chosen =>
          have rules : findRoutingRule config.routing (some tag) authUser = some rule := by
            rw [routed]
            exact found
          refine ⟨chosen,?_,.inl ⟨routing,rule,routed,firstFound same found,firstFound (fun _ _ => beq_iff_eq) taken⟩⟩
          rw [selectOutbound,rules]
          dsimp only
          rw [taken]
          rfl

def Routed (config : ServerConfig) : Prop :=
  ∀ inbound, config.inbounds.head? = some inbound → ∀ user ∈ inbound.settings.users, ∃ chosen relay,
    Chosen config inbound.tag (some user.name) chosen ∧ buildOutbound chosen = .ok relay ∧
      resolveServerOutbound config inbound.tag (some user.name) = .ok relay

theorem serverRoutes (accepted : validateServerConfig config configPath = .ok ()) :
    Routed config ↔ config.outbounds ≠ [] := by
  have facts := validated accepted
  constructor
  · intro routed none
    obtain ⟨first,rest,list⟩ := List.exists_cons_of_ne_nil facts.inbounds
    have member : first ∈ config.inbounds := list ▸ List.mem_cons_self
    obtain ⟨user,others,users⟩ := List.exists_cons_of_ne_nil (facts.users first member)
    obtain ⟨chosen,_,isChosen,_,_⟩ := routed first (by rw [list]; rfl) user (users ▸ List.mem_cons_self)
    have inside := chosenMember isChosen
    rw [none] at inside
    exact absurd inside List.not_mem_nil
  · intro nonempty inbound _ user _
    obtain ⟨chosen,select,isChosen⟩ := selected facts nonempty inbound.tag (some user.name)
    obtain ⟨_,held⟩ := facts.outbounds chosen (chosenMember isChosen)
    obtain ⟨relay,built⟩ := outboundBuilds held
    refine ⟨chosen,relay,isChosen,built,?_⟩
    rw [resolveServerOutbound,select]
    exact built

theorem okUnit {x : Result Unit} (ok : x.isOk = true) : x = .ok () := by
  cases x with
  | error e => contradiction
  | ok _ => rfl

def sampleUser : User := ⟨['a'],List.replicate 32 'x'⟩

def sampleConfig (outbounds : List Outbound) : ServerConfig :=
  ⟨none,[⟨some ['i','n'],443,kanotls,⟨[sampleUser],⟨['a','.','b'],443⟩,none⟩⟩],outbounds,none⟩

theorem serverRoutesDirect : Routed (sampleConfig [⟨none,direct,none⟩]) :=
  (@serverRoutes (sampleConfig [⟨none,direct,none⟩]) "server.json" (okUnit (by decide +kernel))).mpr (List.cons_ne_nil _ _)

theorem noOutboundAccepted : validateServerConfig (sampleConfig []) "server.json" = .ok () ∧
    resolveServerOutbound (sampleConfig []) (some ['i','n']) (some ['a']) =
      .error "no outbounds configured and no routing rule matched" ∧ ¬ Routed (sampleConfig []) := by
  refine ⟨okUnit (by decide +kernel),rfl,fun routed => ?_⟩
  obtain ⟨chosen,relay,_,_,resolved⟩ := routed _ rfl sampleUser List.mem_cons_self
  contradiction

end Routes

end KanoTls.Config

import Fluxbee.Router.Termination

/-! What routers, WF nodes and SY.timer answer on their own. The payload of a reply, and whether a
workflow takes an event, are left to the node. -/
namespace Fluxbee.Router
open Text Shm Lsa List Option

/-! ### Replies -/

def msgNotTaken : String := "NOT_TAKEN"
def msgNodeStatusGet : String := "NODE_STATUS_GET"
def msgTimerFired : String := "TIMER_FIRED"

def Message.sourceL2Name (msg : Message) : String := msg.routing.srcL2Name.getD ""

def endsWith (s back : String) : Bool := back.toList.isSuffixOf s.toList

section
variable (uuid : String) (incoming : Message)

def buildSystemResponse (name : String) (payload : Json) : Message :=
  buildSystemMessage uuid
    (if incoming.routing.src = "" then .broadcast else .unicast incoming.routing.src)
    (if incoming.routing.ttl = 0 then 1 else incoming.routing.ttl) incoming.routing.traceId name
    payload

def buildNodeStatusResponse (payload : Json) : Message :=
  buildSystemMessage uuid (.unicast incoming.routing.src) 16 incoming.routing.traceId
    "NODE_STATUS_GET_RESPONSE" payload

def buildNodeConfigResponse (payload : Json) : Message :=
  let response := buildSystemResponse uuid incoming "CONFIG_RESPONSE" payload
  { response with info :=
    { response.info with scope := incoming.info.scope, target := some "node_config_control" } }

end

/-- The names that neither a WF nor SY.timer takes as a request. -/
def noticeNames : List String :=
  ["HELLO", "ANNOUNCE", "WITHDRAW", "ECHO", "ECHO_REPLY", msgUnreachable, msgTtlExceeded]

/-! ### WF nodes -/

def isNotice (msg : Message) : Bool :=
  isBlank msg.sourceL2Name || noticeNames.contains msg.verb || msg.verb == "TIMER_HELP" ||
    msg.verb == "" && isSystemKind msg.info.msgType

def isReply (name : String) : Bool :=
  endsWith name "_RESPONSE" || name == msgNotTaken || endsWith name ".error"

def neverAnswered (msg : Message) : Bool := isNotice msg || msg.verb == "" || isReply msg.verb

/-- Whether the name starts with `IO.` in upper case, which the dotless i has as well. -/
def isIO (name : String) : Bool :=
  match (trim name).toList with
  | a :: b :: '.' :: _ => ['I', 'i', 'ı'].contains a && ['O', 'o'].contains b
  | _ => false

inductive NotTaken where
  | noThread
  | noConversation
  | invalidInput
  | notExpected
  deriving DecidableEq

def NotTaken.label : NotTaken → String
  | .noThread => "no_thread"
  | .noConversation => "no_conversation"
  | .invalidInput => "invalid_input"
  | .notExpected => "not_expected"

structure WfNode where
  uuid : String
  configured : Bool
  /-- The payload of the reply, where one is sent. -/
  reply : Message → Option Json
  /-- Why a workflow event is not taken, with the detail, where it is not. -/
  refuses : Message → Option (NotTaken × String)

def WfNode.answerNotTaken (node : WfNode) (msg : Message) (reason : NotTaken) (detail : String) :
    Option Message :=
  if isNotice msg || isReply msg.verb then none
  else if ! isIO msg.sourceL2Name &&
      (neverAnswered msg || (reason != .noThread && reason != .invalidInput)) then none
  else if msg.routing.src = "" then none
  else some (buildSystemMessage node.uuid (.unicast msg.routing.src) 16 msg.routing.traceId
    msgNotTaken (.obj [("detail", .str detail), ("error", .str "not_taken"), ("ok", .bool false),
      ("reason", .str reason.label)]))

def wfControlRequests : List String :=
  ["WF_HELP", "WF_GET_INSTANCE", "WF_LIST_INSTANCES", "WF_GET_CODE", "WF_CANCEL_INSTANCE"]

def WfNode.dispatch (node : WfNode) (msg : Message) : Option Message :=
  if isSystemKind msg.info.msgType && msg.verb == msgNodeStatusGet then
    (node.reply msg).map (buildNodeStatusResponse node.uuid msg)
  else if isSystemKind msg.info.msgType && ["CONFIG_GET", "CONFIG_SET"].contains msg.verb then
    (node.reply msg).map (buildNodeConfigResponse node.uuid msg)
  else if isNotice msg then none
  else if wfControlRequests.contains msg.verb then
    -- A caller without the right and a node without a config are answered under the same name.
    (node.reply msg).map (buildSystemResponse node.uuid msg (msg.verb ++ "_RESPONSE"))
  else if isSystemKind msg.info.msgType && msg.verb != msgTimerFired then none
  else if !node.configured then none
  else (node.refuses msg).bind fun why => node.answerNotTaken msg why.1 why.2

/-! ### SY.timer -/

def isInfrastructureMessage (msg : Message) : Bool :=
  msg.sourceL2Name == "" || msg.verb == "" || noticeNames.contains msg.verb ||
    endsWith msg.verb "_RESPONSE"

structure TimerNode where
  uuid : String
  reply : Message → Option Json

def TimerNode.handleMessage (node : TimerNode) (msg : Message) : Option Message :=
  if msg.info.msgType ≠ systemKind then none
  else if isInfrastructureMessage msg then none
  else if msg.verb = msgNodeStatusGet then
    (node.reply msg).map (buildNodeStatusResponse node.uuid msg)
  else
    -- Any other name is answered, with an error where no verb has it.
    (node.reply msg).map (buildSystemResponse node.uuid msg "TIMER_RESPONSE")

/-! ### Chains of answers -/

/-- A message that a router, a WF or a SY.timer receives. -/
inductive Reception where
  | router (own : Uuid) (env : Env) (arrival : Arrival)
  | wf (node : WfNode) (msg : Message)
  | timer (node : TimerNode) (msg : Message)

def Reception.msg : Reception → Message
  | .router _ _ arrival => arrival.msg
  | .wf _ msg | .timer _ msg => msg

def Reception.atRouter : Reception → Bool
  | .router .. => true
  | _ => false

def Reception.fromNode : Reception → Bool
  | .router _ _ arrival => !arrival.isLink
  | _ => false

/-- No router is listed as a node where the message is received. -/
def Reception.Unlisted (isRouter : Uuid → Bool) : Reception → Prop
  | .router own env _ => isRouter own = true ∧ env.Unlisted isRouter
  | _ => True

section
variable (authorizeSystem : String → Option String → String → Bool)

/-- The messages made because of what is received. Of a router's frames these are its notices. -/
def Reception.answers : Reception → List Message
  | .router own env arrival =>
    ((handleArrival authorizeSystem own env arrival).2.frames.map Frame.msg).filter fun msg =>
      isNoticeKind msg && msg.routing.src == own.hyphenated
  | .wf node msg => (node.dispatch msg).toList
  | .timer node msg => (node.handleMessage msg).toList

/-- `r'` receives a copy of an answer to `r`. On the way routers change neither the kind nor the name
of a message, nor its sender. No node sends on a notice that it gets from a router. -/
def Caused (r r' : Reception) : Prop :=
  ∃ msg ∈ r.answers authorizeSystem, r'.msg.info.msgType = msg.info.msgType ∧
    r'.msg.info.msg = msg.info.msg ∧ r'.msg.routing.src = msg.routing.src ∧
    (r.atRouter = true → r'.fromNode = false)

variable {authorizeSystem} {isRouter : Uuid → Bool} {r r' : Reception} {msg answer : Message}

def isResponse (msg : Message) : Bool :=
  msg.info.msgType == systemKind && endsWith msg.verb "_RESPONSE"

def isNotTaken (msg : Message) : Bool := msg.info.msgType == systemKind && msg.verb == msgNotTaken

theorem isResponse_of {name : String} (htype : msg.info.msgType = systemKind)
    (hname : msg.verb = name) (h : endsWith name "_RESPONSE" = true) : isResponse msg = true := by
  unfold isResponse
  rw [htype, hname, h]
  rfl

theorem endsWith_append (s back : String) : endsWith (s ++ back) back = true := by
  unfold endsWith
  rw [String.toList_append, isSuffixOf_iff_suffix]
  exact suffix_append _ _

theorem isSystemKind_of_eq (h : msg.info.msgType = systemKind) :
    isSystemKind msg.info.msgType = true := by
  rw [h]
  decide

theorem verb_of_isNoticeKind (h : isNoticeKind msg = true) :
    msg.verb = msgUnreachable ∨ msg.verb = msgTtlExceeded := by
  unfold isNoticeKind at h
  simp only [Bool.and_eq_true, Bool.or_eq_true, beq_iff_eq] at h
  unfold Message.verb
  rcases h.2 with hmsg | hmsg
  · exact .inl (by rw [hmsg]; rfl)
  · exact .inr (by rw [hmsg]; rfl)

variable {node : WfNode}

theorem WfNode.dispatch_cases (h : node.dispatch msg = some answer) :
    isResponse answer = true ∨ isNotTaken answer = true := by
  unfold WfNode.dispatch at h
  split at h
  · obtain ⟨payload, -, rfl⟩ := map_eq_some_iff.mp h
    exact .inl (isResponse_of rfl rfl (by decide : endsWith "NODE_STATUS_GET_RESPONSE" _ = true))
  split at h
  · obtain ⟨payload, -, rfl⟩ := map_eq_some_iff.mp h
    exact .inl (isResponse_of rfl rfl (by decide : endsWith "CONFIG_RESPONSE" _ = true))
  split at h
  · cases h
  split at h
  · obtain ⟨payload, -, rfl⟩ := map_eq_some_iff.mp h
    exact .inl (isResponse_of rfl rfl (endsWith_append msg.verb _))
  split at h
  · cases h
  split at h
  · cases h
  obtain ⟨why, -, hwhy⟩ := bind_eq_some_iff.mp h
  unfold WfNode.answerNotTaken at hwhy
  split at hwhy
  · cases hwhy
  split at hwhy
  · cases hwhy
  split at hwhy
  · cases hwhy
  cases hwhy
  exact .inr rfl

def wfSystemNames : List String :=
  [msgNodeStatusGet, "CONFIG_GET", "CONFIG_SET", msgTimerFired] ++ wfControlRequests

theorem mem_wfSystemNames (h : node.dispatch msg = some answer)
    (hsystem : isSystemKind msg.info.msgType = true) : msg.verb ∈ wfSystemNames := by
  by_contra hname
  simp only [wfSystemNames, mem_append, mem_cons, not_mem_nil, or_false, not_or] at hname
  obtain ⟨⟨hstatus, hget, hset, hfired⟩, hcontrol⟩ := hname
  unfold WfNode.dispatch at h
  simp [hsystem, hstatus, hget, hset, hfired, hcontrol] at h

theorem WfNode.dispatch_regular (h : node.dispatch msg = some answer) :
    isNoticeKind msg = false ∧ isResponse msg = false ∧ isNotTaken msg = false := by
  have hresponses : ∀ name ∈ wfSystemNames, endsWith name "_RESPONSE" = false := by decide
  refine ⟨Bool.eq_false_iff.mpr fun hkind => ?_, Bool.eq_false_iff.mpr fun hkind => ?_,
    Bool.eq_false_iff.mpr fun hkind => ?_⟩
  · have hname := mem_wfSystemNames h (Bool.and_eq_true_iff.mp hkind).1
    rcases verb_of_isNoticeKind hkind with hverb | hverb
    · exact absurd (hverb ▸ hname) (by decide)
    · exact absurd (hverb ▸ hname) (by decide)
  · obtain ⟨htype, hends⟩ := Bool.and_eq_true_iff.mp hkind
    have hname := mem_wfSystemNames h (isSystemKind_of_eq (beq_iff_eq.mp htype))
    exact absurd ((hresponses _ hname).symm.trans hends) (by decide)
  · obtain ⟨htype, hverb⟩ := Bool.and_eq_true_iff.mp hkind
    have hname := mem_wfSystemNames h (isSystemKind_of_eq (beq_iff_eq.mp htype))
    exact absurd (beq_iff_eq.mp hverb ▸ hname) (by decide)

theorem TimerNode.handleMessage_cases {node : TimerNode}
    (h : node.handleMessage msg = some answer) :
    isResponse answer = true ∧ isNoticeKind msg = false ∧ isResponse msg = false := by
  unfold TimerNode.handleMessage at h
  split at h
  · cases h
  split at h
  · cases h
  rename_i hinfra
  refine ⟨?_, Bool.eq_false_iff.mpr fun hkind => hinfra ?_,
    Bool.eq_false_iff.mpr fun hkind => hinfra ?_⟩
  · split at h
    · obtain ⟨payload, -, rfl⟩ := map_eq_some_iff.mp h
      exact isResponse_of rfl rfl (by decide : endsWith "NODE_STATUS_GET_RESPONSE" _ = true)
    · obtain ⟨payload, -, rfl⟩ := map_eq_some_iff.mp h
      exact isResponse_of rfl rfl (by decide : endsWith "TIMER_RESPONSE" _ = true)
  · have hnotice : noticeNames.contains msg.verb = true := by
      rcases verb_of_isNoticeKind hkind with hverb | hverb <;> rw [hverb] <;> decide
    unfold isInfrastructureMessage
    rw [hnotice, Bool.or_true, Bool.true_or]
  · unfold isInfrastructureMessage
    rw [(Bool.and_eq_true_iff.mp hkind).2, Bool.or_true]

/-- How many answers may still follow what is received. -/
def Reception.rank (isRouter : Uuid → Bool) (r : Reception) : ℕ :=
  if isRouterNotice isRouter r.msg && !r.fromNode then 0
  else if isResponse r.msg then 1
  else if isNotTaken r.msg then 2
  else 3

theorem Reception.rank_eq_zero :
    r.rank isRouter = 0 ↔ isRouterNotice isRouter r.msg = true ∧ r.fromNode = false := by
  unfold Reception.rank
  split_ifs with hnotice hresponse htaken <;> simp_all

theorem Reception.rank_le_one (h : isResponse r.msg = true) : r.rank isRouter ≤ 1 := by
  unfold Reception.rank
  rw [if_pos h]
  split <;> decide

theorem Reception.two_le_rank (hnotice : isNoticeKind r.msg = false)
    (hresponse : isResponse r.msg = false) : 2 ≤ r.rank isRouter := by
  unfold Reception.rank isRouterNotice
  simp only [hnotice, hresponse, Bool.false_and, Bool.false_eq_true, if_false]
  split <;> decide

theorem Caused.rank_lt (hr : r.Unlisted isRouter) (h : Caused authorizeSystem r r') :
    r'.rank isRouter < r.rank isRouter := by
  obtain ⟨answer, hanswer, htype, hname, hsrc, hlink⟩ := h
  have hresponse : isResponse r'.msg = isResponse answer := by
    unfold isResponse Message.verb
    rw [htype, hname]
  cases r with
  | router own env arrival =>
    obtain ⟨hmem, hkind⟩ := mem_filter.mp hanswer
    obtain ⟨hkind, hown⟩ := Bool.and_eq_true_iff.mp hkind
    have hnotice : isRouterNotice isRouter r'.msg = true := by
      unfold isRouterNotice isNoticeKind
      rw [htype, hname, hsrc, beq_iff_eq.mp hown, Uuid.parseStr_hyphenated]
      exact Bool.and_eq_true_iff.mpr ⟨hkind, hr.1⟩
    rw [Reception.rank_eq_zero.mpr ⟨hnotice, hlink rfl⟩]
    refine Nat.pos_of_ne_zero fun hzero => ?_
    -- A router answers no router's notice that it gets from another router.
    obtain ⟨hreceived, hfrom⟩ := Reception.rank_eq_zero.mp hzero
    have hback : arrival.isLink = true := by simpa [Reception.fromNode] using hfrom
    rw [frames_of_routerNotice own hr.2 hback hreceived] at hmem
    cases hmem
  | wf node msg =>
    have hdispatch : node.dispatch msg = some answer := mem_toList.mp hanswer
    obtain ⟨hkind, hplain, hfresh⟩ := WfNode.dispatch_regular hdispatch
    have hthree : (Reception.wf node msg).rank isRouter = 3 := by
      simp [Reception.rank, isRouterNotice, Reception.msg, hkind, hplain, hfresh]
    have htwo : r'.rank isRouter ≤ 2 := by
      rcases WfNode.dispatch_cases hdispatch with hmade | hmade
      · exact (Reception.rank_le_one (hresponse.trans hmade)).trans (by decide)
      · have htaken : isNotTaken r'.msg = true := by
          rw [← hmade]
          unfold isNotTaken Message.verb
          rw [htype, hname]
        unfold Reception.rank
        rw [if_pos htaken]
        split_ifs <;> decide
    omega
  | timer node msg =>
    obtain ⟨hmade, hkind, hplain⟩ := TimerNode.handleMessage_cases (mem_toList.mp hanswer)
    exact (Nat.lt_succ_of_le (Reception.rank_le_one (hresponse.trans hmade))).trans_le
      (Reception.two_le_rank (r := .timer node msg) hkind hplain)

/-- Where no router is listed as a node, no chain has more than three answers. -/
theorem answers_never_bounce (chain : ℕ → Reception)
    (hunlisted : ∀ n, (chain n).Unlisted isRouter) :
    ∃ n ≤ 3, ¬ Caused authorizeSystem (chain n) (chain (n + 1)) := by
  by_contra hall
  push Not at hall
  -- Every answer is of a lower rank, and none has a rank above three.
  have hle : ∀ n ≤ 4, (chain n).rank isRouter + n ≤ 3 := by
    intro n
    induction n with
    | zero =>
      intro _
      unfold Reception.rank
      split_ifs <;> decide
    | succ n ih =>
      intro hn
      have hlt := (hall n (by omega)).rank_lt (hunlisted n)
      have := ih (by omega)
      omega
  have := hle 4 le_rfl
  omega

end

namespace Relay

def named (src kind name : String) : Message :=
  ⟨⟨src, some "AI.a@motherbee", .unicast zeroUuid.hyphenated, 16, ""⟩,
    ⟨kind, some name, none, none, none, none, false⟩, .null⟩

def timer : TimerNode := ⟨Twin.sender.hyphenated, fun _ => some .null⟩

/-- A WF refuses a request of a SY.timer, whose reply then finds nobody. -/
def refusal : ℕ → Reception
  | 0 => .wf ⟨"wf", true, fun _ => none, fun _ => some (.noThread, "")⟩
    (named timer.uuid "user" "RUN")
  | 1 => .timer timer (named "wf" systemKind msgNotTaken)
  | 2 => .router Twin.router (env Twin.routerTables)
    (.fromNode (named timer.uuid systemKind "TIMER_RESPONSE"))
  | _ => .timer timer (named Twin.router.hyphenated systemKind msgUnreachable)

def third : Uuid := Twin.uuid 5

/-- Two nodes of a third router have the UUIDs of the router and of the gateway. -/
def posing (tables : RouterTables) : RouterTables :=
  { tables with
    nodes := ∅
    peerNodes := (tables.peerNodes.insert Twin.router ⟨"AI.c@motherbee", 0, third⟩).insert
      Twin.gateway ⟨"AI.d@motherbee", 0, third⟩ }

def atRouter (msg : Message) : Reception :=
  .router Twin.router (env (posing Twin.routerTables)) (.fromSibling Twin.gateway msg)

def atGateway (msg : Message) : Reception :=
  .router Twin.gateway (env (posing Twin.gatewayTables)) (.fromSibling Twin.router msg)

def lost : Message := buildUnreachable Twin.gateway (message zeroUuid 1) "NODE_NOT_FOUND"

/-- A message to a node that is gone, by a node that is gone when the notice comes. -/
def bounce : ℕ → Reception
  | 0 => atGateway (message zeroUuid 1)
  | 1 => atRouter lost
  | 2 => atGateway (buildUnreachable Twin.router lost "NODE_NOT_FOUND")
  | n + 3 =>
    if n % 2 = 0 then atRouter (echo Twin.gateway Twin.router)
    else atGateway (echo Twin.router Twin.gateway)

theorem caused_of_mem {r r' : Reception} (h : r'.msg ∈ r.answers Twin.deny)
    (hlink : r'.fromNode = false) : Caused Twin.deny r r' :=
  ⟨r'.msg, h, rfl, rfl, rfl, fun _ => hlink⟩

end Relay

open Relay

/-- Three answers follow the request, and no more. -/
theorem answers_never_bounce_refusal :
    (∀ n < 3, Caused Twin.deny (Relay.refusal n) (Relay.refusal (n + 1))) ∧
      ∃ n ≤ 3, ¬ Caused Twin.deny (Relay.refusal n) (Relay.refusal (n + 1)) := by
  refine ⟨fun n hn => ?_, @answers_never_bounce Twin.deny isRouter refusal fun n => ?_⟩
  · obtain _ | _ | _ | n := n
    · exact ⟨_, mem_singleton_self _, by decide +kernel⟩
    · exact ⟨_, mem_singleton_self _, by decide +kernel⟩
    · exact ⟨_, mem_singleton_self _, by decide +kernel⟩
    · omega
  · obtain _ | _ | _ | n := n
    · trivial
    · trivial
    · exact ⟨rfl, unlisted_env (by decide +kernel) (by decide +kernel) rfl⟩
    · trivial

/-- Two routers answer each other's notices for ever. -/
theorem notices_bounce :
    ¬ ∃ n, ¬ Caused Twin.deny (Relay.bounce n) (Relay.bounce (n + 1)) := by
  have hgateway : Caused Twin.deny (atRouter (echo Twin.gateway Twin.router))
      (atGateway (echo Twin.router Twin.gateway)) :=
    caused_of_mem (by decide +kernel) rfl
  have hrouter : Caused Twin.deny (atGateway (echo Twin.router Twin.gateway))
      (atRouter (echo Twin.gateway Twin.router)) :=
    caused_of_mem (by decide +kernel) rfl
  rw [not_exists_not]
  intro n
  obtain _ | _ | _ | n := n
  · exact caused_of_mem (by decide +kernel) rfl
  · exact caused_of_mem (by decide +kernel) rfl
  · exact caused_of_mem (by decide +kernel) rfl
  · rcases Nat.mod_two_eq_zero_or_one n with hn | hn
    · have hnext : (n + 1) % 2 = 1 := by omega
      simpa [bounce, hn, hnext] using hgateway
    · have hnext : (n + 1) % 2 = 0 := by omega
      simpa [bounce, hn, hnext] using hrouter

end Fluxbee.Router

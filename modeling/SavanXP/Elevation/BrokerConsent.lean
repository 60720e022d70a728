import SavanXP.Elevation.Broker

/-!
# Nothing is elevated without consent

Every program that the broker starts has a warrant in the calls before it: the
request that was read, and unless the system asked, the one consent request with
the same command and the answer to it.  A computation of the broker is followed
by the calls that it adds; nearly all of them start nothing.
-/

namespace SavanXP.Elevation.Broker

open Library List Fallible

/-! ## What a run may contain -/

/-- A call that starts no program. -/
def Event.Quiet (event : Event) : Prop :=
  ∀ path argv identity, event.call ≠ .spawnExAs path argv identity

/-- A call of the wait for an answer: nothing is written, nobody is connected to. -/
def Event.Idle (event : Event) : Prop :=
  match event.call with
  | .clockNs | .waitMany _ _ | .readDiscard _ | .close _ => True
  | _ => False

theorem Event.Idle.quiet {event : Event} (idle : event.Idle) : event.Quiet := by
  intro path argv identity spawns
  rw [Event.Idle, spawns] at idle
  exact idle

/-- `parse_request` accepts it: an absolute path that ends in the buffer, and as many
strings as it says that end in theirs. -/
structure ElevationRequest.WellFormed (asked : ElevationRequest) : Prop where
  magic : asked.magic = elevationMagic
  version : asked.version = elevationVersion
  absolute : asked.path.head? = some 47
  terminated : asked.path.contains 0 = true
  arguments : elevationArgsValid asked.args asked.argc = true

/-- The last round of the wait: begun before the deadline, it brought a whole reply that
says yes. -/
def SaidYes (deadline : UInt64) (fromWindowd clientRead : Int) (events : List Event) : Prop :=
  ∃ (wait : List Event) (now waited got : UInt64) (reply : ConsentReply),
    events = wait ++
      [⟨.clockNs, now, now⟩,
        ⟨.waitMany [fromWindowd, clientRead] (((deadline - now) / 1000000).toNat + 1), (0 : Int),
          waited⟩,
        ⟨.readConsentReply fromWindowd, some reply, got⟩] ∧
      (∀ event ∈ wait, event.Idle) ∧ now < deadline ∧
      reply.magic = consentMagic ∧ reply.answer = 1

/-- The user was shown this very command and said yes: on a connection to the consent port
that the system created, one request was written, and the answer was read from it. -/
def Consented (client : Connection) (asked : ElevationRequest) (asking : List Event) : Prop :=
  ∃ (started connected queried wrote : UInt64) (channel : Channel) (query : Option ProcessQuery)
      (shown : ConsentRequest) (wait closing : List Event),
    asking =
      [⟨.clockNs, started, started⟩, ⟨.portConnectEx .consent, some channel, connected⟩,
        ⟨.processQuery client.clientPid.toNat, query, queried⟩,
        ⟨.writeConsent channel.toWindowd shown, true, wrote⟩] ++ wait ++ closing ∧
      channel.creator.euid = 0 ∧
      shown.program = firstString asked.path ∧ shown.argc = asked.argc ∧ shown.args = asked.args ∧
      SaidYes (started + consentMs * 1000000) channel.fromWindowd client.readHandle wait ∧
      ∀ event ∈ closing, event.Idle

/-- A program is started with these rights after these calls: they end with a request of
this connection and what was asked about it. -/
def Warranted (old : List Event) (path : Bytes) (argv : List Bytes) (identity : Identity) : Prop :=
  ∃ (port : Int) (client : Connection) (asked : ElevationRequest)
      (accepted readable requested : UInt64) (earlier asking : List Event),
    old = earlier ++
      [⟨.portAcceptEx port, some client, accepted⟩,
        ⟨.waitMany [client.readHandle] requestMs, (0 : Int), readable⟩,
        ⟨.readRequest client.readHandle, some asked, requested⟩] ++ asking ∧
      asked.WellFormed ∧ path = firstString asked.path ∧
      argv = strings asked.argc.toNat asked.args ∧
      identity = ⟨client.client.uid, 0, client.client.gid⟩ ∧
      (client.client.euid = 0 ∧ asking = [] ∨ Consented client asked asking) ∧
      ∀ event ∈ asking, event.Quiet

/-! ## Requests -/

variable {argv : List Bytes}

theorem parseArgs_eq {n : Nat} {rest : Bytes} (parsed : parseArgs n rest = some argv) :
    stringsEnd n rest = true ∧ argv = strings n rest := by
  induction n generalizing rest argv with
  | zero => exact ⟨rfl, (Option.some.inj parsed).symm⟩
  | succ n ih =>
    unfold parseArgs at parsed
    split at parsed
    · cases parsed
    split at parsed
    · next ends =>
      obtain ⟨others, found, rfl⟩ := Option.map_eq_some_iff.mp parsed
      obtain ⟨last, rfl⟩ := ih found
      exact ⟨by rw [stringsEnd, ends, last]; rfl, rfl⟩
    · cases parsed

variable {asked : ElevationRequest}

theorem parseRequest_some (parsed : parseRequest asked = some argv) :
    asked.WellFormed ∧ argv = strings asked.argc.toNat asked.args := by
  unfold parseRequest at parsed
  split at parsed
  · cases parsed
  next hdr =>
    split at parsed
    · cases parsed
    next path =>
      obtain ⟨ends, rfl⟩ := parseArgs_eq parsed
      simp only [not_or, not_not, Bool.not_eq_false, Nat.not_lt] at hdr path
      obtain ⟨magic, version, -, some, few⟩ := hdr
      exact ⟨⟨magic, version, path.1, path.2, by simp [elevationArgsValid, ends, some, few]⟩, rfl⟩

/-- A copy without the last byte of the buffer, ended by a zero, holds the same string. -/
theorem firstString_take {size : Nat} {bytes : Bytes} (full : bytes.length = size + 1)
    (terminated : 0 ∈ bytes) : firstString (bytes.take size ++ [0]) = firstString bytes := by
  induction size generalizing bytes with
  | zero =>
    obtain ⟨first, rfl⟩ := length_eq_one_iff.mp full
    obtain rfl := mem_singleton.mp terminated
    rfl
  | succ size ih =>
    cases bytes with
    | nil => cases full
    | cons first rest =>
      by_cases ended : first = 0
      · simp [firstString, ended]
      · have later : 0 ∈ rest := (mem_cons.mp terminated).resolve_left (Ne.symm ended)
        simpa [firstString, ended] using ih (Nat.succ.inj full) later

variable {client : Connection}

theorem consentRequest_program {query : Option ProcessQuery}
    (terminated : asked.path.contains 0 = true) :
    (consentRequest client query asked).program = firstString asked.path :=
  firstString_take asked.pathSize (by simpa using terminated)

/-! ## Quiet computations -/

/-- Calls were made, all of this kind. -/
def Adding (kind : Event → Prop) (daemon later : Daemon) : Prop :=
  ∃ events, later.log = daemon.log ++ events ∧ ∀ event ∈ events, kind event

instance (kind : Event → Prop) : IsPreorder Daemon (Adding kind) where
  refl daemon := ⟨[], (append_nil _).symm, nofun⟩
  trans := by
    rintro daemon middle later ⟨first, one, each⟩ ⟨second, two, still⟩
    exact ⟨first ++ second, by rw [two, one, append_assoc], forall_mem_append.mpr ⟨each, still⟩⟩

variable {daemon later : Daemon}

theorem Adding.mono {kind wider : Event → Prop} (adding : Adding kind daemon later)
    (weaker : ∀ event, kind event → wider event) : Adding wider daemon later := by
  obtain ⟨events, grown, each⟩ := adding
  exact ⟨events, grown, fun event mem => weaker event (each event mem)⟩

variable {events : List Event}

theorem Adding.of_append {kind : Event → Prop} (adding : Adding kind daemon later)
    (grown : later.log = daemon.log ++ events) : ∀ event ∈ events, kind event := by
  obtain ⟨added, same, each⟩ := adding
  rwa [append_cancel_left (grown.symm.trans same)]

abbrev Hushed : Daemon → Daemon → Prop := Adding Event.Quiet

section Daemon

variable (kernel : Kernel)

/-- After a call anything may have been its result. -/
theorem sys_bind {call : Call} {α : Type} {next : call.Result → Fallible Daemon α}
    {post : α → Daemon → Prop} {fails : Daemon → Prop}
    (rest : ∀ res time, wp (next res) post fails
      { daemon with log := daemon.log ++ [⟨call, res, time⟩] }) :
    wp (sys kernel call >>= next) post fails daemon :=
  rest _ _

theorem clock_bind {α : Type} {next : UInt64 → Fallible Daemon α} {post : α → Daemon → Prop}
    {fails : Daemon → Prop} (rest : ∀ now, wp (next now) post fails
      { daemon with log := daemon.log ++ [⟨.clockNs, now, now⟩] }) :
    wp (sys kernel .clockNs >>= next) post fails daemon :=
  rest _

theorem sys_hushed {call : Call}
    (quiet : ∀ path argv identity, call ≠ .spawnExAs path argv identity) :
    Along Hushed (sys kernel call) :=
  fun _ => ⟨_, rfl, forall_mem_singleton.mpr quiet⟩

theorem setChild_hushed (slot : Fin maxChildren) (child : Child) :
    Along Hushed (setChild slot child) :=
  fun _ => ⟨[], (append_nil _).symm, nofun⟩

theorem closeHandle_idle (handle : Int) :
    Along (Adding Event.Idle) (closeHandle kernel handle) := by
  unfold closeHandle
  split
  · refine .bind (fun daemon => ⟨_, rfl, fun event mem => ?_⟩) fun _ => .pure _
    obtain rfl := mem_singleton.mp mem
    trivial
  · exact .pure _

theorem closeBoth_idle (one other : Int) : Along (Adding Event.Idle) (closeBoth kernel one other) :=
  .bind (closeHandle_idle kernel one) fun _ => closeHandle_idle kernel other

theorem closeHandle_hushed (handle : Int) : Along Hushed (closeHandle kernel handle) :=
  (closeHandle_idle kernel handle).mono fun _ _ idle => idle.mono fun _ => Event.Idle.quiet

theorem closeBoth_hushed (one other : Int) : Along Hushed (closeBoth kernel one other) :=
  (closeBoth_idle kernel one other).mono fun _ _ idle => idle.mono fun _ => Event.Idle.quiet

theorem awaitAnswer_hushed (fromWindowd clientRead : Int) (deadline : UInt64) (rounds : Nat) :
    Along Hushed (awaitAnswer kernel fromWindowd clientRead deadline rounds) := by
  induction rounds with
  | zero => exact .fail
  | succ rounds ih =>
    refine .bind (sys_hushed kernel nofun) fun now => ?_
    split
    · exact .pure _
    refine .bind (sys_hushed kernel nofun) fun which => ?_
    split
    · exact .bind (sys_hushed kernel nofun) fun _ => .pure _
    split
    · refine .bind (sys_hushed kernel nofun) fun got => ?_
      split
      · exact .pure _
      · exact ih
    · exact ih

section

variable (client : Connection) (asked : ElevationRequest)

theorem askConsent_hushed (rounds : Nat) :
    Along Hushed (askConsent kernel client asked rounds) := by
  refine .bind (sys_hushed kernel nofun) fun started => ?_
  refine .bind (sys_hushed kernel nofun) fun connected => ?_
  cases connected with
  | none => exact .pure _
  | some channel =>
    dsimp only
    split
    · exact .bind (closeBoth_hushed kernel _ _) fun _ => .pure _
    refine .bind (sys_hushed kernel nofun) fun query => ?_
    refine .bind (sys_hushed kernel nofun) fun written => ?_
    split
    · exact .bind (closeBoth_hushed kernel _ _) fun _ => .pure _
    · refine .bind (awaitAnswer_hushed kernel _ _ _ _) fun answer => ?_
      exact .bind (closeBoth_hushed kernel _ _) fun _ => .pure _

theorem consentFor_hushed (rounds : Nat) :
    Along Hushed (consentFor kernel client asked rounds) := by
  unfold consentFor
  split
  · exact .pure _
  · exact askConsent_hushed kernel client asked rounds

theorem finish_hushed (slot : Fin maxChildren)
    (consent pid : Int) : Along Hushed (finish kernel client asked slot consent pid) := by
  refine .bind ?_ fun _ => .bind (closeHandle_hushed kernel _) fun _ => ?_
  · unfold tellStarted
    split
    · exact .pure _
    · exact .bind (sys_hushed kernel nofun) fun _ => .pure _
  unfold keepChild
  split
  · split
    · exact setChild_hushed _ _
    · exact .bind (setChild_hushed _ _) fun _ => closeHandle_hushed kernel _
  · exact closeHandle_hushed kernel _

end

theorem reapChild_hushed (slot : Fin maxChildren) : Along Hushed (reapChild kernel slot) := by
  refine .bind .get fun daemon => ?_
  dsimp only
  split
  · exact .pure _
  refine .bind (sys_hushed kernel nofun) fun query => ?_
  split
  · exact .pure _
  refine .bind (sys_hushed kernel nofun) fun status => .bind ?_ fun _ => setChild_hushed _ _
  unfold tellExited
  split
  · exact .bind (sys_hushed kernel nofun) fun _ => closeHandle_hushed kernel _
  · exact .pure _

theorem reapChildren_hushed : Along Hushed (reapChildren kernel) :=
  .foldlM (fun _ slot => reapChild_hushed kernel slot) _ _

/-! ## Consent -/

theorem answerOf_yes {reply : Option ConsentReply} (yes : answerOf reply = 1) :
    ∃ whole, reply = some whole ∧ whole.magic = consentMagic ∧ whole.answer = 1 := by
  cases reply with
  | none => cases yes
  | some whole =>
    unfold answerOf at yes
    dsimp only at yes
    split at yes
    · cases yes
    next magic =>
      split at yes
      · next one => exact ⟨whole, rfl, not_not.mp magic, one⟩
      split at yes
      · next negative =>
        have below : whole.answer.toInt < 0 := Int32.lt_iff_toInt_lt.mp negative
        omega
      · cases yes

/-- An answer of yes was read in the last round. -/
theorem awaitAnswer_saidYes (fromWindowd clientRead : Int) (deadline : UInt64) (rounds : Nat)
    (daemon : Daemon) : wp (awaitAnswer kernel fromWindowd clientRead deadline rounds)
      (fun answer later => answer = 1 → ∃ events, later.log = daemon.log ++ events ∧
        SaidYes deadline fromWindowd clientRead events) (fun _ => True) daemon := by
  induction rounds generalizing daemon with
  | zero => trivial
  | succ rounds ih =>
    -- a round that brings no answer is idle, and the next one starts after it
    have again : ∀ (idle : List Event) (later : Daemon), later.log = daemon.log ++ idle →
        (∀ event ∈ idle, event.Idle) →
        wp (awaitAnswer kernel fromWindowd clientRead deadline rounds)
          (fun answer last => answer = 1 → ∃ events, last.log = daemon.log ++ events ∧
            SaidYes deadline fromWindowd clientRead events) (fun _ => True) later := by
      intro idle later grown quiet
      refine (ih later).imp fun answer last found yes => ?_
      obtain ⟨events, same, wait, now, waited, got, reply, rfl, still, facts⟩ := found yes
      refine ⟨idle ++ (wait ++ _), by rw [same, grown, append_assoc], ?_⟩
      exact ⟨idle ++ wait, now, waited, got, reply, by simp, forall_mem_append.mpr ⟨quiet, still⟩,
        facts⟩
    refine clock_bind kernel fun now => ?_
    split
    · exact fun yes => by cases yes
    next early =>
      refine sys_bind kernel fun which waited => ?_
      split
      · next ready =>
        refine sys_bind kernel fun reply got yes => ?_
        obtain ⟨whole, rfl, magic, one⟩ := answerOf_yes yes
        refine ⟨_, by simp only [append_assoc]; rfl, [], now, waited, got, whole, ?_, nofun,
          UInt64.not_le.mp early, magic, one⟩
        rw [ready]
        rfl
      split
      · refine sys_bind kernel fun discarded thrown => ?_
        split
        · exact fun yes => by cases yes
        · exact again _ _ (by simp only [append_assoc]; rfl) (by simp [Event.Idle])
      · exact again _ _ (by simp only [append_assoc]; rfl) (by simp [Event.Idle])

/-- The channel is closed after an answer, whatever it was. -/
theorem closeBoth_then {post : Int → Daemon → Prop} (one other answer : Int)
    (after : ∀ later, Adding Event.Idle daemon later → post answer later) :
    wp (do closeBoth kernel one other; pure answer) post (fun _ => True) daemon := by
  rw [wp_bind]
  exact ((closeBoth_idle kernel one other).wp daemon).mono (fun _ => after) fun _ _ => trivial

theorem askConsent_consented (client : Connection)
    (terminated : asked.path.contains 0 = true) (rounds : Nat) (daemon : Daemon) :
    wp (askConsent kernel client asked rounds)
      (fun answer later => answer = 1 → ∃ asking, later.log = daemon.log ++ asking ∧
        Consented client asked asking) (fun _ => True) daemon := by
  refine clock_bind kernel fun started => sys_bind kernel fun connected connectedAt => ?_
  cases connected with
  | none => exact fun yes => absurd yes (by decide)
  | some channel =>
    dsimp only
    split
    · exact closeBoth_then kernel _ _ _ fun _ _ yes => absurd yes (by decide)
    next system =>
      refine sys_bind kernel fun query queried => sys_bind kernel fun written wrote => ?_
      split
      · exact closeBoth_then kernel _ _ _ fun _ _ yes => absurd yes (by decide)
      next whole =>
        obtain rfl : written = true := by simpa using whole
        rw [wp_bind]
        refine (awaitAnswer_saidYes kernel _ _ _ rounds _).imp fun answer middle said => ?_
        refine closeBoth_then kernel _ _ _ fun later closed yes => ?_
        obtain ⟨wait, waited, saidYes⟩ := said yes
        obtain ⟨closing, grown, idle⟩ := closed
        refine ⟨_, ?_, started, connectedAt, queried, wrote, channel, query,
          consentRequest client query asked, wait, closing, rfl, not_not.mp system,
          consentRequest_program terminated, rfl, rfl, saidYes, idle⟩
        rw [grown, waited]
        simp

/-- A yes comes from the system asking, or from the user. -/
theorem consentFor_consented (client : Connection)
    (terminated : asked.path.contains 0 = true) (rounds : Nat) (daemon : Daemon) :
    wp (consentFor kernel client asked rounds)
      (fun answer later => answer = 1 → ∃ asking, later.log = daemon.log ++ asking ∧
        (client.client.euid = 0 ∧ asking = [] ∨ Consented client asked asking))
      (fun _ => True) daemon := by
  unfold consentFor
  split
  · next system => exact fun _ => ⟨[], (append_nil _).symm, .inl ⟨system, rfl⟩⟩
  refine (askConsent_consented kernel client terminated rounds daemon).imp ?_
  intro answer later found yes
  obtain ⟨asking, grown, consented⟩ := found yes
  exact ⟨asking, grown, .inr consented⟩

end Daemon

/-! ## Runs -/

theorem Warranted.after {old : List Event} {path : Bytes} {identity : Identity}
    (warranted : Warranted old path argv identity) (first : List Event) :
    Warranted (first ++ old) path argv identity := by
  obtain ⟨port, client, asked, accepted, readable, requested, earlier, asking, rfl, facts⟩ :=
    warranted
  exact ⟨port, client, asked, accepted, readable, requested, first ++ earlier, asking, by simp,
    facts⟩

/-- Every program that is started has its warrant. -/
def Just (events : List Event) : Prop :=
  ∀ old path argv identity pid time after,
    events = old ++ ⟨.spawnExAs path argv identity, pid, time⟩ :: after →
      Warranted old path argv identity

theorem Just.of_quiet (quiet : ∀ event ∈ events, event.Quiet) : Just events := by
  intro old path argv identity pid time after split
  have spawns := quiet ⟨.spawnExAs path argv identity, pid, time⟩ (by rw [split]; simp)
  exact absurd rfl (spawns path argv identity)

theorem Just.append {first second : List Event} (one : Just first) (two : Just second) :
    Just (first ++ second) := by
  intro old path argv identity pid time after split
  rcases append_eq_append_iff.mp split with ⟨middle, same, rest⟩ | ⟨middle, same, rest⟩
  · rw [same]
    exact (two _ _ _ _ _ _ _ rest).after first
  cases middle with
  | nil =>
    have whole := (two [] _ _ _ _ _ _ rest.symm).after first
    rwa [same, append_nil, append_nil] at whole
  | cons event middle =>
    obtain ⟨rfl, rfl⟩ := cons.inj rest
    exact one _ _ _ _ _ _ _ same

theorem Just.spawn (just : Just events) {path : Bytes} {identity : Identity}
    (warranted : Warranted events path argv identity) (pid : Int) (time : UInt64) :
    Just (events ++ [⟨.spawnExAs path argv identity, pid, time⟩]) := by
  intro old path argv identity pid time after split
  rcases eq_nil_or_concat after with rfl | ⟨after, last, rfl⟩
  · obtain ⟨rfl, same⟩ := append_inj' split rfl
    cases same
    exact warranted
  · rw [concat_eq_append, ← cons_append, ← append_assoc] at split
    exact just _ _ _ _ _ _ _ (append_inj' split rfl).1

/-- Calls were made, and every program that they started has its warrant. -/
def Justly (daemon later : Daemon) : Prop :=
  ∃ events, later.log = daemon.log ++ events ∧ Just events

instance : IsPreorder Daemon Justly where
  refl daemon := ⟨[], (append_nil _).symm, .of_quiet nofun⟩
  trans := by
    rintro daemon middle later ⟨first, one, just⟩ ⟨second, two, still⟩
    exact ⟨first ++ second, by rw [two, one, append_assoc], just.append still⟩

theorem Adding.justly (hushed : Hushed daemon later) : Justly daemon later := by
  obtain ⟨events, grown, quiet⟩ := hushed
  exact ⟨events, grown, .of_quiet quiet⟩

section Daemon

variable (kernel : Kernel)

/-- The calls of `serve` up to the request that it read. -/
def received (port : Int) (client : Connection) (asked : ElevationRequest)
    (accepted readable requested : UInt64) : List Event :=
  [⟨.portAcceptEx port, some client, accepted⟩,
    ⟨.waitMany [client.readHandle] requestMs, (0 : Int), readable⟩,
    ⟨.readRequest client.readHandle, some asked, requested⟩]

theorem received_quiet {port : Int} {accepted readable requested : UInt64} :
    ∀ event ∈ received port client asked accepted readable requested, event.Quiet := by
  simp [received, Event.Quiet]

theorem handle_justly {start : Daemon} {port : Int} {accepted readable requested : UInt64}
    (grown : daemon.log = start.log ++ received port client asked accepted readable requested)
    (parsed : parseRequest asked = some argv) (rounds : Nat) :
    wp (handle kernel client asked argv rounds) (fun _ => Justly start) (Justly start)
      daemon := by
  obtain ⟨wellFormed, rfl⟩ := parseRequest_some parsed
  have begun : Hushed start daemon := ⟨_, grown, received_quiet⟩
  have quietly : ∀ {α : Type} {rest : Fallible Daemon α} {middle : Daemon},
      Justly start middle → Along Hushed rest →
        wp rest (fun _ => Justly start) (Justly start) middle := by
    intro α rest middle just hushed
    exact (hushed.wp middle).mono (fun _ _ more => trans_of Justly just more.justly)
      (fun _ more => trans_of Justly just more.justly)
  unfold handle
  rw [wp_bind, wp_get]
  cases free : freeChild daemon.children with
  | none =>
    exact quietly begun.justly
      (.bind (sys_hushed kernel nofun) fun _ => closeBoth_hushed kernel _ _)
  | some slot =>
    have hushed := consentFor_hushed kernel client asked rounds daemon
    have consented := consentFor_consented kernel client wellFormed.terminated rounds daemon
    cases ran : consentFor kernel client asked rounds daemon with
    | mk out later =>
      rw [ran] at hushed
      cases out with
      | none =>
        dsimp only
        rw [wp, bind_none ran]
        exact (trans_of Hushed begun hushed).justly
      | some consent =>
        rw [wp_bind]
        refine wp_of_some ran ?_
        split
        · next yes =>
          obtain ⟨asking, grew, approved⟩ := consented.result ran yes
          have quiet := hushed.of_append grew
          refine sys_bind kernel fun pid time => quietly ?_ (finish_hushed kernel _ _ _ _ _)
          have just : Just (received port client asked accepted readable requested ++ asking) :=
            (Just.of_quiet received_quiet).append (.of_quiet quiet)
          have warranted : Warranted
              (received port client asked accepted readable requested ++ asking)
              (firstString asked.path) (strings asked.argc.toNat asked.args)
              ⟨client.client.uid, 0, client.client.gid⟩ :=
            ⟨port, client, asked, accepted, readable, requested, [], asking, rfl,
              wellFormed, rfl, rfl, rfl, approved, quiet⟩
          refine ⟨_, ?_, just.spawn warranted pid time⟩
          simp only [grew, grown, append_assoc]
        · exact quietly (trans_of Hushed begun hushed).justly (finish_hushed kernel _ _ _ _ _)

theorem serve_justly (port : Int) (rounds : Nat) : Along Justly (serve kernel port rounds) := by
  refine .of_wp fun start => ?_
  have closes : ∀ {daemon : Daemon} {client : Connection}, Hushed start daemon →
      wp (closeBoth kernel client.readHandle client.writeHandle) (fun _ => Justly start)
        (Justly start) daemon := by
    intro daemon client begun
    refine ((closeBoth_hushed kernel _ _).wp daemon).mono (fun _ _ more => ?_) (fun _ more => ?_)
    all_goals exact (trans_of Hushed begun more).justly
  refine sys_bind kernel fun conn accepted => ?_
  cases conn with
  | none => exact Adding.justly ⟨_, rfl, by simp [Event.Quiet]⟩
  | some client =>
    refine sys_bind kernel fun which readable => ?_
    split
    · exact closes ⟨_, append_assoc _ _ _, by simp [Event.Quiet]⟩
    next ready =>
      obtain rfl := not_not.mp ready
      refine sys_bind kernel fun req requested => ?_
      have told : ∀ req : Option ElevationRequest, ∀ event ∈
          ([⟨.portAcceptEx port, some client, accepted⟩,
            ⟨.waitMany [client.readHandle] requestMs, (0 : Int), readable⟩,
            ⟨.readRequest client.readHandle, req, requested⟩] : List Event), event.Quiet := by
        simp [Event.Quiet]
      cases req with
      | none => exact closes ⟨_, by simp only [append_assoc]; rfl, told none⟩
      | some asked =>
        dsimp only
        split
        · exact closes ⟨_, by simp only [append_assoc]; rfl, told (some asked)⟩
        · next argv parsed =>
          exact handle_justly kernel (by simp only [append_assoc]; rfl) parsed rounds

theorem mainLoop_justly (port : Int) (rounds turns : Nat) :
    Along Justly (mainLoop kernel port rounds turns) := by
  have reaps : Along Justly (reapChildren kernel) :=
    (reapChildren_hushed kernel).mono fun _ _ => Adding.justly
  induction turns with
  | zero => exact .pure _
  | succ turns ih =>
    refine .bind (.bind ?_ fun woken => ?_) fun _ => ih
    · exact (@sys_hushed kernel (.waitOne port tickMs) nofun).mono fun _ _ => Adding.justly
    split
    · exact .bind (serve_justly kernel port rounds) fun _ => reaps
    · exact reaps

theorem run_just (rounds turns : Nat) : Just (run kernel rounds turns) := by
  have along : Along Justly (main kernel rounds turns) := by
    refine .bind ((@sys_hushed kernel (.portCreate .elevation) nofun).mono fun _ _ => Adding.justly)
      fun port => ?_
    split
    · exact .pure _
    · exact mainLoop_justly kernel port rounds turns
  obtain ⟨events, grown, just⟩ := along ⟨[], fun _ => ⟨0, -1⟩⟩
  rw [run, grown]
  exact just

/-- A program is started only for a well-formed request of this connection, with the rights
of the connection's own user, after the system asked for it or the user consented to that
very command; and between the request and its start no other program is started. -/
theorem elevated_only_with_consent (rounds turns : Nat) {before after : List Event} {path : Bytes}
    {argv : List Bytes} {identity : Identity} {pid : Int} {time : UInt64}
    (spawned : run kernel rounds turns =
      before ++ ⟨.spawnExAs path argv identity, pid, time⟩ :: after) :
    Warranted before path argv identity :=
  run_just kernel rounds turns _ _ _ _ _ _ _ spawned

end Daemon

/-- `/b` with the one argument `b`, and a byte in the buffer after it. -/
def sampleRequest : ElevationRequest where
  magic := elevationMagic
  version := elevationVersion
  flags := 0
  argc := 1
  path := [47, 98] ++ replicate 126 0
  args := [98, 0, 99] ++ replicate 381 0
  pathSize := by rw [length_append, length_replicate]; rfl
  argsSize := by rw [length_append, length_replicate]; rfl

def sampleUser : Identity := ⟨1000, 1000, 100⟩

/-- The user of a session asks and says yes half a millisecond after the deadline, when the
last wait, begun just before it, has not yet run out. -/
def lateKernel : Kernel where
  time log :=
    if log.length < 9 then 0 else if log.length = 9 then 599999999999 else 600000500000
  answer _ call :=
    match call with
    | .clockNs => 0
    | .portCreate _ => (3 : Int)
    | .portAcceptEx _ => some ⟨7, 4, 5, sampleUser⟩
    | .portConnectEx _ => some ⟨6, 8, ⟨0, 0, 0⟩⟩
    | .waitOne _ _ => (0 : Int)
    | .waitMany _ _ => (0 : Int)
    | .processQuery _ => none
    | .waitpid _ => none
    | .readRequest _ => some sampleRequest
    | .readConsentReply _ => some ⟨consentMagic, 1⟩
    | .readDiscard _ => (0 : Int)
    | .writeConsent _ _ => true
    | .writeReply _ _ _ => ()
    | .spawnExAs _ _ _ => (9 : Int)
    | .close _ => ()

/-- The calls of the late run up to the start of the program. -/
def lateCalls : List Event :=
  [⟨.portCreate .elevation, (3 : Int), 0⟩, ⟨.waitOne 3 250, (0 : Int), 0⟩,
    ⟨.portAcceptEx 3, some ⟨7, 4, 5, sampleUser⟩, 0⟩, ⟨.waitMany [4] 2000, (0 : Int), 0⟩,
    ⟨.readRequest 4, some sampleRequest, 0⟩, ⟨.clockNs, (0 : UInt64), 0⟩,
    ⟨.portConnectEx .consent, some ⟨6, 8, ⟨0, 0, 0⟩⟩, 0⟩, ⟨.processQuery 7, none, 0⟩,
    ⟨.writeConsent 6 (consentRequest ⟨7, 4, 5, sampleUser⟩ none sampleRequest), true, 0⟩,
    ⟨.clockNs, (599999999999 : UInt64), 599999999999⟩,
    ⟨.waitMany [8, 4] 1, (0 : Int), 600000500000⟩,
    ⟨.readConsentReply 8, some ⟨consentMagic, 1⟩, 600000500000⟩, ⟨.close 6, (), 600000500000⟩,
    ⟨.close 8, (), 600000500000⟩]

/-- The calls of the late run after that. -/
def lastCalls : List Event :=
  [⟨.writeReply 5 .started 9, (), 600000500000⟩, ⟨.close 4, (), 600000500000⟩,
    ⟨.close 5, (), 600000500000⟩, ⟨.processQuery 9, none, 600000500000⟩,
    ⟨.waitpid 9, none, 600000500000⟩]

theorem elevated_only_with_consent_late : Warranted lateCalls [47, 98] [[98]] ⟨1000, 0, 100⟩ :=
  @elevated_only_with_consent lateKernel 1 1 lateCalls lastCalls _ _ _ 9 600000500000
    (by decide +kernel)

/-- The reply was read after the deadline, which was set at time zero, and the program was
started, for a request that is more than its one argument. -/
theorem late_yes_starts_program :
    run lateKernel 1 1 = lateCalls ++
        ⟨.spawnExAs [47, 98] [[98]] ⟨1000, 0, 100⟩, (9 : Int), 600000500000⟩ :: lastCalls ∧
      0 + consentMs * 1000000 < 600000500000 ∧ sampleUser.euid ≠ 0 ∧
      sampleRequest.argc = 1 ∧ 99 ∈ afterString sampleRequest.args := by
  decide +kernel

end SavanXP.Elevation.Broker

import Justup.Smtp.Exchange

/-!
# The fate of a mail

A hand-off ends in one of three ways: the content was never handed to the
connection, it was and no reply to it came, or a reply came.  What is raised says which of
them it was, except where the reply had a line that is too long.
-/

namespace Justup.Smtp

open Lib.Raising Store

variable (server : Server) (client : Client)

/-! ## Three ways to end -/

/-- The contents that were handed to the connection. -/
def Conn.contents (conn : Conn) : List Sent := conn.wire.filter fun sent => sent.payload.isContent

def Conn.Unsent (conn : Conn) : Prop :=
  conn.contents = [] ∧ conn.finalReply = none ∧
    (conn.phase = .idle ∨ conn.phase = .command ∧ conn.sock = none)

def Conn.Answered (conn : Conn) (code : Int) : Prop :=
  (∃ sent, conn.contents = [sent]) ∧ conn.finalReply = some code ∧
    (conn.phase = if 200 ≤ code ∧ code < 300 then .accepted else .idle) ∧
    readReply [] server.contentReply ≠ .tooLong

/-- The content was written and its reply has a line that is too long. -/
def Conn.Overlong (conn : Conn) : Prop :=
  (∃ sent ∈ conn.contents, sent.succeeded = true) ∧ readReply [] server.contentReply = .tooLong

def Conn.Lost (conn : Conn) (error : Exc) : Prop :=
  (∃ sent, conn.contents = [sent]) ∧ conn.finalReply = none ∧ conn.phase = .content ∧
    conn.sock = none ∧
    (error = .serverDisconnected ∧ ¬ conn.Overlong server ∨
      error = .response 500 lineTooLong ∧ conn.Overlong server)

/-- The outcome of a hand-off tells what became of the content. -/
def Told {α : Type} (outcome : Except Exc α) (conn : Conn) : Prop :=
  match outcome with
  | .ok _ => ∃ code, conn.Answered server code ∧ 200 ≤ code ∧ code < 300
  | .error error => conn.Unsent ∧ error.isEarly = true ∨ conn.Lost server error ∨
      ∃ code, conn.Answered server code ∧ error.isLate = true

theorem contents_of_grows {allowed : Payload → Prop} {conn later : Conn}
    (hgrows : conn.Grows allowed later)
    (hallowed : ∀ payload, allowed payload → payload.isContent = false) :
    later.contents = conn.contents := by
  obtain ⟨new, hnew, hpayload⟩ := hgrows.wire
  have hnone : new.filter (fun sent => sent.payload.isContent) = [] := by
    rw [List.filter_eq_nil_iff]
    intro sent hsent
    simp [hallowed _ (hpayload sent hsent).2]
  rw [Conn.contents, hnew, List.filter_append, hnone, List.append_nil]
  rfl

theorem not_content_of_command {payload : Payload} (hcommand : payload.isCommand = true) :
    payload.isContent = false := by
  cases payload <;> first | rfl | cases hcommand

section Later

variable {allowed : Payload → Prop} {conn next : Conn}

theorem Conn.Unsent.later (hunsent : conn.Unsent) (hgrows : conn.Grows allowed next)
    (hsame : conn.Same next)
    (hallowed : ∀ payload, allowed payload → payload.isContent = false) : next.Unsent := by
  obtain ⟨hcontents, hreply, hphase⟩ := hunsent
  refine ⟨(contents_of_grows hgrows hallowed).trans hcontents, hsame.finalReply.trans hreply, ?_⟩
  rw [hsame.phase]
  obtain hidle | ⟨hcommand, hsock⟩ := hphase
  · exact .inl hidle
  · refine .inr ⟨hcommand, ?_⟩
    obtain h | h := hgrows.sock
    · exact h.trans hsock
    · exact h

theorem Conn.Answered.later {code : Int} (hanswered : conn.Answered server code)
    (hgrows : conn.Grows allowed next) (hsame : conn.Same next)
    (hallowed : ∀ payload, allowed payload → payload.isContent = false) :
    next.Answered server code := by
  obtain ⟨hsent, hreply, hphase, hshort⟩ := hanswered
  rw [← contents_of_grows hgrows hallowed] at hsent
  exact ⟨hsent, hsame.finalReply.trans hreply, hsame.phase.trans hphase, hshort⟩

theorem Conn.Lost.later {error : Exc} (hlost : conn.Lost server error)
    (hgrows : conn.Grows allowed next) (hsame : conn.Same next)
    (hallowed : ∀ payload, allowed payload → payload.isContent = false) :
    next.Lost server error := by
  obtain ⟨hsent, hreply, hphase, hsock, herror⟩ := hlost
  have hcontents := contents_of_grows hgrows hallowed
  refine ⟨hcontents ▸ hsent, hsame.finalReply.trans hreply, hsame.phase.trans hphase, ?_, ?_⟩
  · obtain h | h := hgrows.sock
    · exact h.trans hsock
    · exact h
  · rwa [Conn.Overlong, hcontents]

/-- What is told stays true while commands are written. -/
theorem Told.later {α : Type} {outcome : Except Exc α} (htold : Told server outcome conn)
    (hgrows : conn.Grows allowed next) (hsame : conn.Same next)
    (hallowed : ∀ payload, allowed payload → payload.isContent = false) :
    Told server outcome next := by
  cases outcome with
  | ok value =>
      obtain ⟨code, hanswered, hcode⟩ := htold
      exact ⟨code, hanswered.later server hgrows hsame hallowed, hcode⟩
  | error error =>
      obtain ⟨hunsent, hearly⟩ | hlost | ⟨code, hanswered, hlate⟩ := htold
      · exact .inl ⟨hunsent.later hgrows hsame hallowed, hearly⟩
      · exact .inr (.inl (hlost.later server hgrows hsame hallowed))
      · exact .inr (.inr ⟨code, hanswered.later server hgrows hsame hallowed, hlate⟩)

end Later

theorem Conn.Unsent.settled {conn : Conn} (hunsent : conn.Unsent) : conn.Settled := by
  intro _
  obtain hidle | ⟨hcommand, hsock⟩ := hunsent.2.2
  · exact .inl hidle
  · exact .inr (.inr ⟨hsock, by simp [hcommand]⟩)

theorem Conn.Answered.settled {conn : Conn} {code : Int}
    (hanswered : conn.Answered server code) : conn.Settled := by
  intro _
  have hphase := hanswered.2.2.1
  split at hphase
  next => exact .inr (.inl hphase)
  next => exact .inl hphase

theorem Told.settled {α : Type} {outcome : Except Exc α} {conn : Conn}
    (htold : Told server outcome conn) : conn.Settled := by
  cases outcome with
  | ok value =>
      obtain ⟨code, hanswered, -⟩ := htold
      exact hanswered.settled server
  | error error =>
      obtain ⟨hunsent, -⟩ | hlost | ⟨code, hanswered, -⟩ := htold
      · exact hunsent.settled
      · obtain ⟨-, -, hphase, hsock, -⟩ := hlost
        exact fun _ => .inr (.inr ⟨hsock, by simp [hphase]⟩)
      · exact hanswered.settled server

/-! ## The content -/

/-- Watched, before the DATA command. -/
structure Conn.Fresh (conn : Conn) : Prop where
  watched : conn.watched = true
  phase : conn.phase = .idle
  contents : conn.contents = []
  finalReply : conn.finalReply = none

theorem Conn.Fresh.unsent {conn : Conn} (hfresh : conn.Fresh) : conn.Unsent :=
  ⟨hfresh.contents, hfresh.finalReply, .inl hfresh.phase⟩

theorem Conn.Fresh.later {allowed : Payload → Prop} {conn next : Conn} (hfresh : conn.Fresh)
    (hgrows : conn.Grows allowed next) (hsame : conn.Same next)
    (hallowed : ∀ payload, allowed payload → payload.isContent = false) : next.Fresh where
  watched := hsame.watched.trans hfresh.watched
  phase := hsame.phase.trans hfresh.phase
  contents := (contents_of_grows hgrows hallowed).trans hfresh.contents
  finalReply := hsame.finalReply.trans hfresh.finalReply

def Payload.isCredentials : Payload → Bool
  | .credentials _ => true
  | _ => false

/-- What a transaction writes. -/
abbrev Open (payload : Payload) : Prop := payload.isCredentials = false

theorem open_of_command {payload : Payload} (hcommand : payload.isCommand = true) :
    Open payload := by
  cases payload <;> first | rfl | cases hcommand

theorem Conn.Grows.from {allowed : Payload → Prop} {start conn next : Conn}
    (hgrows : conn.Grows allowed next) (hwire : conn.wire = start.wire)
    (hsock : conn.sock = start.sock) (hopened : conn.opened = start.opened) :
    start.Grows allowed next := by
  obtain ⟨hnew, hend, hcount⟩ := hgrows
  rw [hwire, hsock] at hnew
  rw [hsock] at hend
  exact ⟨hnew, hend, hcount.trans hopened⟩

/-- The answer to DATA decides whether the content follows. -/
theorem ends_askData {conn : Conn} (hfresh : conn.Fresh) :
    Ends (docmd server (text "data")) conn fun outcome next =>
      conn.Grows (fun payload => payload.isCommand = true) next ∧
        match outcome with
        | .ok reply => next.watched = true ∧ next.contents = [] ∧ next.finalReply = none ∧
            next.sock ≠ none ∧ next.phase = (if reply.1 = 354 then .ready else .idle)
        | .error error => next.Unsent ∧ error.isEarly = true := by
  have hdata : (Payload.command (text "data" ++ crlf)).isData = true := by decide
  have hsend : conn.onSend (.command (text "data" ++ crlf)) = { conn with phase := .command } := by
    rw [Conn.onSend, if_pos hfresh.watched, if_pos ⟨hfresh.phase, hdata⟩]
  have hline : hasNewline (text "data") = false := by decide
  unfold docmd
  rw [hline, if_neg Bool.false_ne_true]
  refine ends_bind ((ends_send server _ conn).imp ?_)
  rw [hsend]
  rintro outcome next ⟨hgrows, hsame, hend⟩
  have hcommands : conn.Grows (fun payload => payload.isCommand = true) next :=
    (hgrows.mono fun payload heq => by rw [heq]; rfl).from rfl rfl rfl
  have hcontents : next.contents = [] :=
    (contents_of_grows hcommands fun _ => not_content_of_command).trans hfresh.contents
  have hreply : next.finalReply = none := hsame.finalReply.trans hfresh.finalReply
  have hphase : next.phase = .command := hsame.phase
  cases outcome with
  | error error =>
      obtain ⟨rfl, hsock⟩ | ⟨-, hascii⟩ := hend
      · exact ⟨hcommands, ⟨hcontents, hreply, .inr ⟨hphase, hsock⟩⟩, rfl⟩
      · cases hascii
  | ok value =>
      have hwatched : next.watched = true := hsame.watched.trans hfresh.watched
      refine (ends_nextReply server next).imp ?_
      rintro (error | reply) last hlast
      · obtain ⟨rfl, herror⟩ := hlast
        refine ⟨⟨hcommands.wire, .inr rfl, hcommands.opened⟩,
          ⟨hcontents, hreply, .inr ⟨hphase, rfl⟩⟩, ?_⟩
        obtain rfl | rfl := herror <;> rfl
      · have hlater : last = { next with
            reads := next.reads + 1, phase := if reply.1 = 354 then .ready else .idle } := by
          rw [hlast, Conn.onReply, if_pos hwatched]
          simp only [hphase]
        rw [hlater]
        have hopen : next.sock ≠ none := hend.1 ▸ hend.2
        exact ⟨⟨hcommands.wire, hcommands.sock, hcommands.opened⟩, hwatched, hcontents, hreply,
          hopen, rfl⟩

/-- A write on an open socket. -/
theorem ends_sendall_open {conn : Conn} {tls : Bool} (hsock : conn.sock = some tls)
    (payload : Payload) : Ends (sendall server payload) conn fun outcome next =>
      ∃ succeeded, next.wire = conn.wire ++ [⟨tls, payload, succeeded⟩] ∧
        next.opened = conn.opened ∧ conn.Same next ∧
          (outcome = .ok ⟨⟩ ∧ succeeded = true ∧ next.sock = conn.sock ∨
            outcome = .error .serverDisconnected ∧ succeeded = false ∧ next.sock = none) := by
  unfold Ends sendall
  rw [hsock]
  dsimp only
  cases hfault : server.writes conn.writes with
  | none => exact ⟨true, rfl, rfl, ⟨rfl, rfl, rfl⟩, .inl ⟨rfl, rfl, rfl⟩⟩
  | some fault => exact ⟨false, rfl, rfl, ⟨rfl, rfl, rfl⟩, .inr ⟨rfl, rfl, rfl⟩⟩

/-- The content and the reply to it. -/
theorem ends_content {conn : Conn} (hwatched : conn.watched = true) (hcontents : conn.contents = [])
    (hreply : conn.finalReply = none) (hopen : conn.sock ≠ none) (hphase : conn.phase = .ready)
    (bytes : Bytes) :
    Ends (do send server (.content bytes); getreply server.contentReply) conn fun outcome next =>
      conn.Grows Open next ∧
        match outcome with
        | .ok reply => next.Answered server reply.1
        | .error error => next.Lost server error := by
  obtain ⟨tls, hsock⟩ := Option.ne_none_iff_exists'.mp hopen
  have hsend : conn.onSend (.content bytes) = { conn with phase := .content } := by
    rw [Conn.onSend, if_pos hwatched, if_neg (by simp [hphase]), if_pos hphase]
  have hsendall : Ends (send server (.content bytes)) conn fun outcome next =>
      ∃ succeeded, next.wire = conn.wire ++ [⟨tls, .content bytes, succeeded⟩] ∧
        next.opened = conn.opened ∧ Conn.Same { conn with phase := .content } next ∧
          (outcome = .ok ⟨⟩ ∧ succeeded = true ∧ next.sock = conn.sock ∨
            outcome = .error .serverDisconnected ∧ succeeded = false ∧ next.sock = none) := by
    unfold send
    refine ends_bind (ends_modify (ends_bind (ends_reads (ends_ite ?_ ?_))))
    · intro _
      rw [hsend]
      have hsame : Conn.sock { conn with phase := .content } = some tls := hsock
      exact ends_sendall_open server hsame _
    · intro hencodable
      simp [Payload.isAscii] at hencodable
  refine ends_bind (hsendall.imp ?_)
  rintro outcome next ⟨succeeded, hwire, hopened, hsame, hend⟩
  have hone : next.contents = [⟨tls, .content bytes, succeeded⟩] := by
    rw [Conn.contents, hwire, List.filter_append]
    exact congrArg (· ++ _) hcontents
  have hgrows : conn.Grows Open next := by
    refine ⟨⟨_, hwire, ?_⟩, hend.imp (fun h => h.2.2) fun h => h.2.2, hopened⟩
    intro sent hsent
    obtain rfl := List.mem_singleton.mp hsent
    exact ⟨hsock, rfl⟩
  have hnext : next.phase = .content := hsame.phase
  have hnone : next.finalReply = none := hsame.finalReply.trans hreply
  obtain ⟨rfl, rfl, hsame'⟩ | ⟨rfl, rfl, hclosed⟩ := hend
  · unfold Ends getreply
    cases hread : readReply [] server.contentReply with
    | lost =>
        refine ⟨⟨hgrows.wire, .inr rfl, hgrows.opened⟩, ⟨_, hone⟩, hnone, hnext, rfl,
          .inl ⟨rfl, ?_⟩⟩
        rintro ⟨-, hlong⟩
        rw [hread] at hlong
        cases hlong
    | tooLong =>
        refine ⟨⟨hgrows.wire, .inr rfl, hgrows.opened⟩, ⟨_, hone⟩, hnone, hnext, rfl,
          .inr ⟨rfl, ⟨⟨tls, .content bytes, true⟩, ?_, rfl⟩, hread⟩⟩
        exact hone ▸ List.mem_singleton_self _
    | reply code text =>
        have hlater : next.onReply code = { next with
            phase := if 200 ≤ code ∧ code < 300 then .accepted else .idle
            finalReply := some code } := by
          rw [Conn.onReply, if_pos (hsame.watched.trans hwatched)]
          simp only [hnext]
        dsimp only
        rw [hlater]
        refine ⟨⟨hgrows.wire, hgrows.sock, hgrows.opened⟩, ⟨_, hone⟩, rfl, rfl, ?_⟩
        rw [hread]
        exact Reply.noConfusion
  · refine ⟨hgrows, ⟨_, hone⟩, hnone, hnext, hclosed, .inl ⟨rfl, ?_⟩⟩
    rintro ⟨⟨sent, hsent, hsucceeded⟩, -⟩
    rw [hone, List.mem_singleton] at hsent
    rw [hsent] at hsucceeded
    cases hsucceeded

/-! ## The hand-off -/

/-- From a fresh connection the outcome tells what became of the content, and no
credentials are written. -/
def Hands {α : Type} (program : SmtpProg α) : Prop :=
  ∀ conn : Conn, conn.Fresh → Ends program conn fun outcome next =>
    conn.Grows Open next ∧ Told server outcome next

section Hands

variable {server} {α β : Type}

theorem hands_raise {error : Exc} (hearly : error.isEarly = true) :
    Hands server (raise error : SmtpProg α) := fun conn hfresh =>
  ends_raise ⟨.refl _ conn, .inl ⟨hfresh.unsent, hearly⟩⟩

theorem Hands.bind {program : SmtpProg α} {rest : α → SmtpProg β} (hfirst : CalmCommand program)
    (hrest : ∀ value, Hands server (rest value)) : Hands server (program >>= rest) := by
  intro conn hfresh
  refine ends_bind ((hfirst conn hfresh.unsent.settled).imp ?_)
  rintro (error | value) next ⟨hgrows, hsame, hfails⟩
  · have hunsent := hfresh.unsent.later hgrows hsame fun _ => not_content_of_command
    exact ⟨hgrows.mono fun _ => open_of_command, .inl ⟨hunsent, hfails error rfl⟩⟩
  · have hfresh' := hfresh.later hgrows hsame fun _ => not_content_of_command
    refine (hrest value next hfresh').imp ?_
    rintro outcome last ⟨hgrows', htold⟩
    exact ⟨(hgrows.mono fun _ => open_of_command).trans hgrows', htold⟩

theorem hands_ite {condition : Prop} [Decidable condition] {yes no : SmtpProg α}
    (hyes : condition → Hands server yes) (hno : ¬ condition → Hands server no) :
    Hands server (if condition then yes else no) := by
  split
  next h => exact hyes h
  next h => exact hno h

end Hands

/-- `data` without what is made of the reply to the content. -/
theorem ends_data {conn : Conn} (hfresh : conn.Fresh) (message : Bytes) :
    Ends (data server message) conn fun outcome next =>
      conn.Grows Open next ∧
        match outcome with
        | .ok reply => next.Answered server reply.1
        | .error error => next.Unsent ∧ error.isEarly = true ∨ next.Lost server error := by
  unfold data
  refine ends_bind ((ends_askData server hfresh).imp ?_)
  rintro (error | reply) next ⟨hgrows, hend⟩
  · exact ⟨hgrows.mono fun _ => open_of_command, .inl hend⟩
  · obtain ⟨hwatched, hcontents, hreply, hopen, hphase⟩ := hend
    refine ends_ite (fun hcode => ?_) fun hcode => ?_
    · rw [if_pos hcode] at hphase
      refine (ends_content server hwatched hcontents hreply hopen hphase _).imp ?_
      rintro (error | last) final ⟨hgrows', hend⟩
      · exact ⟨(hgrows.mono fun _ => open_of_command).trans hgrows', .inr hend⟩
      · exact ⟨(hgrows.mono fun _ => open_of_command).trans hgrows', hend⟩
    · rw [if_neg hcode] at hphase
      exact ends_raise ⟨hgrows.mono fun _ => open_of_command,
        .inl ⟨⟨hcontents, hreply, .inl hphase⟩, rfl⟩⟩

/-- What follows the content: success is the code 250. -/
theorem hands_data (message : Bytes) (refused : Refused) : Hands server (do
    let last ← data server message
    if last.1 = 250 then pure refused
    else do
      afterRefusal server last.1
      raise (.data last.1 last.2)) := by
  intro conn hfresh
  refine ends_bind ((ends_data server hfresh message).imp ?_)
  rintro (error | last) next ⟨hgrows, hend⟩
  · exact ⟨hgrows, hend.imp_right .inl⟩
  · refine ends_ite (fun hcode => ?_) fun _ => ?_
    · exact ends_pure ⟨hgrows, last.1, hend, by omega⟩
    · refine ends_bind ((calm_afterRefusal server last.1 next (hend.settled server)).imp ?_)
      rintro outcome final ⟨hgrows', hsame, hlate⟩
      have hboth := hgrows.trans (hgrows'.mono fun _ => open_of_command)
      have hanswered := hend.later server hgrows' hsame fun _ => not_content_of_command
      cases outcome with
      | error error => exact ⟨hboth, .inr (.inr ⟨_, hanswered, hlate error rfl⟩)⟩
      | ok value => exact ends_raise ⟨hboth, .inr (.inr ⟨_, hanswered, rfl⟩)⟩

theorem hands_sendmail (sender : Text) (recipients : List Text) (message : Bytes)
    (mailOptions : List Text) :
    Hands server (sendmail server client sender recipients message mailOptions) := by
  unfold sendmail
  refine Hands.bind (calm_ehloOrHeloIfNeeded server client) fun _ => ?_
  refine Hands.bind (calm_reads _) fun options => ?_
  refine Hands.bind (calm_mail server client sender options) fun first => ?_
  refine hands_ite (fun _ => ?_) fun _ => ?_
  · refine Hands.bind (calm_rcptAll server client recipients []) fun refused => ?_
    refine hands_ite (fun _ => ?_) fun _ => hands_data server message refused
    refine Hands.bind ((calm_innerRset server).mono (fun _ h => h) fun _ => ?_) fun _ =>
      hands_raise rfl
    exact Exc.isEarly_of_isLate
  · refine Hands.bind ((calm_afterRefusal server first.1).mono (fun _ h => h) fun _ => ?_) fun _ =>
      hands_raise rfl
    exact Exc.isEarly_of_isLate

theorem hands_sendMessageTo (message : Message) (sender : Text) (recipients : List Text) :
    Hands server (sendMessageTo server client message sender recipients) := by
  unfold sendMessageTo
  refine Hands.bind (calm_ehloOrHeloIfNeeded server client) fun _ => ?_
  refine hands_ite (fun _ => hands_raise rfl) fun _ => ?_
  refine Hands.bind (calm_reads _) fun utf8 => ?_
  refine hands_ite (fun _ => hands_raise rfl) fun _ => ?_
  split
  next => exact hands_raise rfl
  next => exact hands_sendmail server client _ _ _ _

/-- Before the hand-off. -/
structure Conn.Before (conn : Conn) : Prop where
  phase : conn.phase = .idle
  contents : conn.contents = []
  finalReply : conn.finalReply = none

theorem Conn.Before.unsent {conn : Conn} (hbefore : conn.Before) : conn.Unsent :=
  ⟨hbefore.contents, hbefore.finalReply, .inl hbefore.phase⟩

theorem Conn.Before.later {allowed : Payload → Prop} {conn next : Conn} (hbefore : conn.Before)
    (hgrows : conn.Grows allowed next) (hsame : conn.Same next)
    (hallowed : ∀ payload, allowed payload → payload.isContent = false) : next.Before where
  phase := hsame.phase.trans hbefore.phase
  contents := (contents_of_grows hgrows hallowed).trans hbefore.contents
  finalReply := hsame.finalReply.trans hbefore.finalReply

theorem ends_submit {conn : Conn} (hbefore : conn.Before) (message : Message)
    (address : Text × List Text) :
    Ends (submit server client message address) conn fun outcome next =>
      conn.Grows Open next ∧ Told server outcome next := by
  unfold submit
  refine ends_bind (ends_modify ?_)
  have hfresh : Conn.Fresh { conn with watched := true } :=
    ⟨rfl, hbefore.phase, hbefore.contents, hbefore.finalReply⟩
  refine ends_bind ((hands_sendMessageTo server client message address.1 address.2 _ hfresh).imp ?_)
  rintro (error | refused) next ⟨hgrows, htold⟩
  · exact ⟨hgrows.from rfl rfl rfl, htold⟩
  · obtain ⟨code, hanswered, hcode⟩ := htold
    refine ends_ite (fun _ => ?_) fun _ => ?_
    · exact ends_pure ⟨hgrows.from rfl rfl rfl, code, hanswered, hcode⟩
    · exact ends_raise ⟨hgrows.from rfl rfl rfl, .inr (.inr ⟨code, hanswered, rfl⟩)⟩

/-! ## In clear -/

/-- The configuration of a relay that is trusted. -/
def Config.IsOpenRelay (config : Config) : Prop :=
  config.port ≠ implicitTlsPort ∧ strip (config.user.getD []) = [] ∧
    config.password.getD [] = [] ∧ config.useTls = false

/-- What may be written in clear. -/
def Config.MayShow (config : Config) (payload : Payload) : Prop :=
  payload.isCommand = true ∨ payload.isContent = true ∧ config.IsOpenRelay

def Secure (config : Config) (conn : Conn) : Prop :=
  ∀ sent ∈ conn.wire, sent.tls = true ∨ config.MayShow sent.payload

theorem Secure.later {config : Config} {allowed : Payload → Prop} {conn next : Conn}
    (hsecure : Secure config conn) (hgrows : conn.Grows allowed next)
    (hallowed : conn.sock = some false → ∀ payload, allowed payload → config.MayShow payload) :
    Secure config next := by
  obtain ⟨new, hwire, hnew⟩ := hgrows.wire
  intro sent hsent
  rw [hwire] at hsent
  obtain hsent | hsent := List.mem_append.mp hsent
  · exact hsecure sent hsent
  · obtain ⟨hsock, hpayload⟩ := hnew sent hsent
    cases htls : sent.tls with
    | false => exact .inr (hallowed (htls ▸ hsock) _ hpayload)
    | true => exact .inl rfl

/-- A state between the steps of `deliver`: at most a socket of this kind is open. -/
structure Poised (config : Config) (tls : Bool) (conn : Conn) : Prop where
  before : conn.Before
  secure : Secure config conn
  sock : conn.sock = some tls ∨ conn.sock = none

theorem Poised.command {config : Config} {tls : Bool} {conn next : Conn}
    (hpoised : Poised config tls conn)
    (hgrows : conn.Grows (fun payload => payload.isCommand = true) next) (hsame : conn.Same next) :
    Poised config tls next where
  before := hpoised.before.later hgrows hsame fun _ => not_content_of_command
  secure := hpoised.secure.later hgrows fun _ _ => .inl
  sock := by
    obtain hsock | hsock := hgrows.sock
    · exact hsock ▸ hpoised.sock
    · exact .inr hsock

theorem Poised.settled {config : Config} {tls : Bool} {conn : Conn}
    (hpoised : Poised config tls conn) : conn.Settled := hpoised.before.unsent.settled

/-- What is shown of a hand-off. -/
def Safe (config : Config) {α : Type} (outcome : Except Exc α) (conn : Conn) : Prop :=
  Told server outcome conn ∧ Secure config conn

theorem Poised.safe {config : Config} {tls : Bool} {conn : Conn} {α : Type} {error : Exc}
    (hpoised : Poised config tls conn) (hearly : error.isEarly = true) :
    Safe server config (.error error : Except Exc α) conn :=
  ⟨.inl ⟨hpoised.before.unsent, hearly⟩, hpoised.secure⟩

/-- Commands first, then the rest. -/
theorem Poised.bind {config : Config} {tls : Bool} {conn : Conn} {α β : Type}
    {program : SmtpProg α} {rest : α → SmtpProg β} (hpoised : Poised config tls conn)
    (hfirst : CalmCommand program)
    (hrest : ∀ value next, Poised config tls next →
      Ends (rest value) next (Safe server config)) :
    Ends (program >>= rest) conn (Safe server config) := by
  refine ends_bind ((hfirst conn hpoised.settled).imp ?_)
  rintro (error | value) next ⟨hgrows, hsame, hfails⟩
  · exact (hpoised.command hgrows hsame).safe server (hfails error rfl)
  · exact hrest value next (hpoised.command hgrows hsame)

/-- The hand-off over TLS, with a login or without. -/
theorem ends_protected {config : Config} {conn : Conn} (hpoised : Poised config true conn)
    (hasCredentials : Bool) (message : Message) (address : Text × List Text) :
    Ends (do
        loginIf server client hasCredentials
        submit server client message address) conn (Safe server config) := by
  have hnever {next : Conn} (hsock : next.sock = some true ∨ next.sock = none) {property : Prop}
      (hclear : next.sock = some false) : property := by
    obtain h | h := hsock <;>
      · rw [h] at hclear
        cases hclear
  refine ends_bind ((calm_loginIf server client hasCredentials conn hpoised.settled).imp ?_)
  rintro (error | value) next ⟨hgrows, hsame, hfails⟩
  · have hbefore := hpoised.before.later hgrows hsame fun _ h => h
    exact ⟨.inl ⟨hbefore.unsent, hfails error rfl⟩,
      hpoised.secure.later hgrows (hnever hpoised.sock)⟩
  · have hsock : next.sock = some true ∨ next.sock = none := by
      obtain h | h := hgrows.sock
      · exact h ▸ hpoised.sock
      · exact .inr h
    have hbefore := hpoised.before.later hgrows hsame fun _ h => h
    have hsecure := hpoised.secure.later hgrows (hnever hpoised.sock)
    refine (ends_submit server client hbefore message address).imp ?_
    rintro outcome last ⟨hgrows', htold⟩
    exact ⟨htold, hsecure.later hgrows' (hnever hsock)⟩

/-! ## Connecting -/

theorem poised_start (config : Config) (tls : Bool) : Poised config tls {} where
  before := ⟨rfl, rfl, rfl⟩
  secure := by intro sent hsent; cases hsent
  sock := .inr rfl

theorem IoFault.exc_isEarly (fault : IoFault) : fault.exc.isEarly = true := by
  cases fault <;> rfl

/-- A connection is opened and greets, or nothing was written on it. -/
theorem ends_connectTo (config : Config) (tls : Bool) (host : Option Text) :
    Ends (connectTo server tls host) {} fun outcome next =>
      Poised config tls next ∧ ∀ error, outcome = .error error → error.isEarly = true := by
  have hraise {conn : Conn} (hpoised : Poised config tls conn) {error : Exc}
      (hearly : error.isEarly = true) : Ends (raise error : SmtpProg Unit) conn
        fun outcome next => Poised config tls next ∧
          ∀ error, outcome = .error error → error.isEarly = true :=
    ends_raise ⟨hpoised, by rintro _ ⟨⟩; exact hearly⟩
  unfold connectTo
  refine ends_ite (fun _ => ends_pure ⟨poised_start config tls, by simp⟩) fun _ => ?_
  refine ends_bind (ends_modify ?_)
  have hopened : Poised config tls { ({} : Conn) with opened := ({} : Conn).opened + 1 } :=
    ⟨⟨rfl, rfl, rfl⟩, (poised_start config tls).secure, .inr rfl⟩
  dsimp only
  split
  next fault _ => exact hraise hopened fault.exc_isEarly
  next =>
    split
    next fault _ => exact hraise hopened fault.exc_isEarly
    next =>
      refine ends_bind (ends_modify ?_)
      refine ends_bind ((ends_nextReply server _).imp ?_)
      rintro (error | reply) next hnext
      · obtain ⟨rfl, herror⟩ := hnext
        refine ⟨⟨⟨rfl, rfl, rfl⟩, (poised_start config tls).secure, .inr rfl⟩, ?_⟩
        rintro _ ⟨⟩
        obtain rfl | rfl := herror <;> rfl
      · have hsame : next = { ({} : Conn) with opened := 1, sock := some tls, reads := 1 } := hnext
        have hpoised : Poised config tls next := by
          rw [hsame]
          exact ⟨⟨rfl, rfl, rfl⟩, (poised_start config tls).secure, .inl rfl⟩
        refine ends_ite (fun _ => ends_pure ⟨hpoised, by simp⟩) fun _ => ?_
        have hclosed : Poised config tls next.close :=
          ⟨⟨hpoised.before.phase, hpoised.before.contents, hpoised.before.finalReply⟩,
            hpoised.secure, .inr rfl⟩
        have hearly : (Exc.connect reply.1 reply.2).isEarly = true := rfl
        exact ends_bind (ends_modify (hraise hclosed hearly))

/-- What is known after `starttls`: the socket is a TLS one, or the delivery has ended. -/
def Secured (config : Config) (outcome : Except Exc Unit) (next : Conn) : Prop :=
  (outcome = .ok () → Poised config true next) ∧
    ∀ error, outcome = .error error →
      Safe server config (.error error : Except Exc Unit) next

theorem secured_error {config : Config} {error : Exc} {next : Conn}
    (hsafe : Safe server config (.error error : Except Exc Unit) next) :
    Secured server config (.error error) next :=
  ⟨nofun, fun _ h => by cases h; exact hsafe⟩

/-- A handshake turns the socket into a TLS one. -/
theorem ends_starttls {config : Config} {conn : Conn} (hpoised : Poised config false conn)
    {rest : SmtpProg Unit}
    (hrest : ∀ next, Poised config true next → Ends rest next (Safe server config)) :
    Ends (do starttls server client; rest) conn (Safe server config) := by
  refine ends_bind ?_
  suffices hstarted : Ends (starttls server client) conn (Secured server config) by
    refine hstarted.imp ?_
    rintro (error | value) next hnext
    · exact hnext.2 error rfl
    · exact hrest next (hnext.1 rfl)
  have hstep {α : Type} {program : SmtpProg α} (hcalm : CalmCommand program)
      {rest : α → SmtpProg Unit} {conn : Conn} (hconn : Poised config false conn)
      (hnext : ∀ value next, Poised config false next →
        Ends (rest value) next (Secured server config)) :
      Ends (program >>= rest) conn (Secured server config) := by
    refine ends_bind ((hcalm conn hconn.settled).imp ?_)
    rintro (error | value) next ⟨hgrows, hsame, hfails⟩
    · exact secured_error server ((hconn.command hgrows hsame).safe server (hfails error rfl))
    · exact hnext value next (hconn.command hgrows hsame)
  unfold starttls
  refine hstep (calm_ehloOrHeloIfNeeded server client) hpoised fun _ next hnext => ?_
  refine hstep (calm_reads _) hnext fun _ next hnext => ends_ite (fun _ => ?_) fun _ =>
    ends_raise (secured_error server (hnext.safe server rfl))
  refine hstep (calm_docmd server (by decide)) hnext fun reply next hnext => ?_
  refine ends_ite (fun _ => ?_) fun _ => ends_raise (secured_error server (hnext.safe server rfl))
  split
  next fault _ => exact ends_raise (secured_error server (hnext.safe server fault.exc_isEarly))
  next =>
    refine ends_modify ⟨fun _ => ⟨⟨hnext.before.phase, hnext.before.contents,
      hnext.before.finalReply⟩, hnext.secure, ?_⟩, nofun⟩
    obtain hsock | hsock := hnext.sock
    · exact .inl (by simp [hsock])
    · exact .inr (by simp [hsock])

/-! ## A delivery -/

/-- Closing the session changes nothing of what is shown. -/
theorem ends_closing {config : Config} {conn : Conn} {program : SmtpProg Unit}
    (hbody : Ends program conn (Safe server config)) :
    Ends (ensure program (closeQuietly server)) conn (Safe server config) := by
  refine ends_ensure (hbody.imp ?_)
  rintro outcome next ⟨htold, hsecure⟩
  refine (calm_closeQuietly server next (htold.settled server)).imp ?_
  rintro (error | value) last ⟨hgrows, hsame, hfails⟩
  · exact absurd rfl fun h => hfails error h
  · exact ⟨htold.later server hgrows hsame fun _ => not_content_of_command,
      hsecure.later hgrows fun _ _ => .inl⟩

theorem credentials_eq_false {config : Config} (h : credentials config = .ok false) :
    strip (config.user.getD []) = [] ∧ config.password.getD [] = [] := by
  unfold credentials at h
  dsimp only at h
  split at h
  next hsame =>
    have huser : decide (strip (config.user.getD []) ≠ []) = false := Except.ok.inj h
    rw [huser] at hsame
    exact ⟨by simpa using huser, by simpa using hsame.symm⟩
  next => cases h

/-- A delivery tells what became of the content and shows nothing that is secret. -/
theorem ends_deliver (message : Message) (config : Config) (address : Text × List Text) :
    Ends (deliver server client message config address) {} (Safe server config) := by
  have hstart (tls : Bool) := poised_start config tls
  unfold deliver
  split
  next error herror =>
    refine ends_raise ((hstart true).safe server ?_)
    unfold credentials at herror
    dsimp only at herror
    split at herror
    next => cases herror
    next =>
      obtain rfl := Except.error.inj herror
      rfl
  next hasCredentials hcredentials =>
    refine ends_ite (fun _ => ?_) fun hport => ?_
    · split
      next fault _ => exact ends_raise ((hstart true).safe server fault.exc_isEarly)
      next =>
        refine ends_bind ((ends_connectTo server config true config.host).imp ?_)
        rintro (error | value) next ⟨hpoised, hearly⟩
        · exact hpoised.safe server (hearly error rfl)
        · exact ends_closing server (ends_protected server client hpoised _ _ _)
    · refine ends_bind ((ends_connectTo server config false config.host).imp ?_)
      rintro (error | value) next ⟨hpoised, hearly⟩
      · exact hpoised.safe server (hearly error rfl)
      refine ends_closing server ?_
      refine hpoised.bind server (calm_ehloOrHeloIfNeeded server client) fun _ next hpoised => ?_
      refine ends_ite (fun _ => ?_) fun huseTls => ?_
      · refine hpoised.bind server (calm_reads _) fun _ next hpoised => ?_
        refine ends_ite (fun _ => ?_) fun _ => ends_raise (hpoised.safe server rfl)
        split
        next fault _ => exact ends_raise (hpoised.safe server fault.exc_isEarly)
        next =>
          refine ends_starttls server client hpoised fun next hpoised => ?_
          refine hpoised.bind server (calm_ehlo server client) fun _ next hpoised => ?_
          exact ends_protected server client hpoised _ _ _
      · refine ends_ite (fun _ => ends_raise (hpoised.safe server rfl)) fun hnone => ?_
        -- the relay without credentials and without TLS
        rw [Bool.not_eq_true] at huseTls hnone
        have hrelay : config.IsOpenRelay :=
          ⟨hport, (credentials_eq_false (hnone ▸ hcredentials)).1,
            (credentials_eq_false (hnone ▸ hcredentials)).2, huseTls⟩
        refine (ends_submit server client hpoised.before message address).imp ?_
        rintro outcome last ⟨hgrows, htold⟩
        refine ⟨htold, hpoised.secure.later hgrows fun _ payload hopen => ?_⟩
        cases payload with
        | command chars => exact .inl rfl
        | credentials response => cases hopen
        | content bytes => exact .inr ⟨rfl, hrelay⟩

end Justup.Smtp

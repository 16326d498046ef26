import Justup.Smtp.Transport

/-!
# What the parts of an exchange do

A calm program issues commands outside a DATA exchange: it writes on the
connection as it is, and neither the phase nor the record of the content moves.
-/

namespace Justup.Smtp

open Lib.Raising Store

/-! ## Errors -/

/-- An error before `send_message` looks at it: no verdict on the acceptance. -/
def Exc.isEarly : Exc → Bool
  | .acceptanceUnknown _ | .notAccepted _ | .signalTimeout => false
  | _ => true

/-- An error that says nothing about a loss of the connection. -/
def Exc.isLate : Exc → Bool
  | .serverDisconnected | .net _ => false
  | error => error.isEarly

theorem Exc.isEarly_of_isLate {error : Exc} (hlate : error.isLate = true) :
    error.isEarly = true := by
  cases error <;> first | rfl | cases hlate

theorem Exc.not_uncertain_of_isLate {error : Exc} (hlate : error.isLate = true) :
    (classifyFailure error).uncertain = false := by
  cases error with
  | connect code text =>
      simp only [classifyFailure]
      split
      next => rfl
      next => exact smtpResponseFailure_certain code text
  | helo code text =>
      simp only [classifyFailure]
      split
      next => rfl
      next => exact smtpResponseFailure_certain code text
  | senderRefused code text =>
      simp only [classifyFailure]
      split
      next => rfl
      next => exact smtpResponseFailure_certain code text
  | data code text => exact smtpResponseFailure_certain code text
  | response code text => exact smtpResponseFailure_certain code text
  | recipientsRefused refused => rfl
  | _ => first | rfl | cases hlate

/-! ## Connections -/

/-- The later connection wrote only such payloads, on the socket as it was, and is
the same connection or closed. -/
structure Conn.Grows (allowed : Payload → Prop) (conn later : Conn) : Prop where
  wire : ∃ new, later.wire = conn.wire ++ new ∧
    ∀ sent ∈ new, conn.sock = some sent.tls ∧ allowed sent.payload
  sock : later.sock = conn.sock ∨ later.sock = none
  opened : later.opened = conn.opened

/-- The record of the content has not moved. -/
structure Conn.Same (conn later : Conn) : Prop where
  watched : later.watched = conn.watched
  phase : later.phase = conn.phase
  finalReply : later.finalReply = conn.finalReply

theorem Conn.Grows.refl (allowed : Payload → Prop) (conn : Conn) : conn.Grows allowed conn :=
  ⟨⟨[], by simp⟩, .inl rfl, rfl⟩

theorem Conn.Same.refl (conn : Conn) : conn.Same conn := ⟨rfl, rfl, rfl⟩

theorem Conn.Same.trans {conn later last : Conn} (hfirst : conn.Same later)
    (hlast : later.Same last) : conn.Same last :=
  ⟨hlast.watched.trans hfirst.watched, hlast.phase.trans hfirst.phase,
    hlast.finalReply.trans hfirst.finalReply⟩

theorem Conn.Grows.trans {allowed : Payload → Prop} {conn later last : Conn}
    (hfirst : conn.Grows allowed later) (hlast : later.Grows allowed last) :
    conn.Grows allowed last := by
  obtain ⟨new, hnew, hallowed⟩ := hfirst.wire
  obtain ⟨more, hmore, hallowed'⟩ := hlast.wire
  refine ⟨⟨new ++ more, by rw [hmore, hnew, List.append_assoc], ?_⟩, ?_,
    hlast.opened.trans hfirst.opened⟩
  · intro sent hsent
    obtain hsent | hsent := List.mem_append.mp hsent
    · exact hallowed sent hsent
    · obtain ⟨hsock, hpayload⟩ := hallowed' sent hsent
      obtain hsame | hnone := hfirst.sock
      · exact ⟨hsame ▸ hsock, hpayload⟩
      · rw [hnone] at hsock
        cases hsock
  · obtain hsame | hnone := hlast.sock
    · exact hsame ▸ hfirst.sock
    · exact .inr hnone

theorem Conn.Grows.mono {allowed allowed' : Payload → Prop} {conn later : Conn}
    (hgrows : conn.Grows allowed later) (himp : ∀ payload, allowed payload → allowed' payload) :
    conn.Grows allowed' later := by
  obtain ⟨new, hnew, hallowed⟩ := hgrows.wire
  exact ⟨⟨new, hnew, fun sent hsent => ⟨(hallowed sent hsent).1, himp _ (hallowed sent hsent).2⟩⟩,
    hgrows.sock, hgrows.opened⟩

/-- No DATA exchange is under way that a write or a reply could move on. -/
def Conn.Settled (conn : Conn) : Prop :=
  conn.watched = true → conn.phase = .idle ∨ conn.phase = .accepted ∨
    conn.sock = none ∧ conn.phase ≠ .ready

theorem Conn.Settled.later {allowed : Payload → Prop} {conn later : Conn}
    (hsettled : conn.Settled) (hgrows : conn.Grows allowed later) (hsame : conn.Same later) :
    later.Settled := by
  intro hwatched
  rw [hsame.phase]
  obtain hidle | haccepted | ⟨hnone, hready⟩ := hsettled (hsame.watched ▸ hwatched)
  · exact .inl hidle
  · exact .inr (.inl haccepted)
  · obtain hsock | hsock := hgrows.sock
    · exact .inr (.inr ⟨hsock.trans hnone, hready⟩)
    · exact .inr (.inr ⟨hsock, hready⟩)

/-! ## Calm programs -/

/-- Outside a DATA exchange the program writes only such payloads and raises only
such errors. -/
def Calm {α : Type} (allowed : Payload → Prop) (fails : Exc → Prop) (program : SmtpProg α) :
    Prop :=
  ∀ conn : Conn, conn.Settled → Ends program conn fun outcome later =>
    conn.Grows allowed later ∧ conn.Same later ∧ ∀ error, outcome = .error error → fails error

section Calm

variable {α β : Type} {allowed : Payload → Prop} {fails : Exc → Prop} {program : SmtpProg α}

theorem calm_pure (value : α) : Calm allowed fails (pure value) := fun conn _ =>
  ends_pure ⟨.refl _ conn, .refl conn, by simp⟩

theorem calm_raise {error : Exc} (herror : fails error) :
    Calm allowed fails (raise error : SmtpProg α) := fun conn _ =>
  ends_raise ⟨.refl _ conn, .refl conn, by rintro _ ⟨⟩; exact herror⟩

theorem calm_reads (f : Conn → α) : Calm allowed fails (reads f) := fun conn _ =>
  ends_reads ⟨.refl _ conn, .refl conn, by simp⟩

/-- A change of what the client knows of the server, or closing the connection. -/
theorem calm_modify {f : Conn → Conn} (hf : ∀ conn, (f conn).wire = conn.wire ∧
      ((f conn).sock = conn.sock ∨ (f conn).sock = none) ∧ (f conn).opened = conn.opened ∧
      conn.Same (f conn)) : Calm allowed fails (modify f) := by
  intro conn _
  obtain ⟨hwire, hsock, hopened, hsame⟩ := hf conn
  exact ends_modify ⟨⟨⟨[], by simp [hwire]⟩, hsock, hopened⟩, hsame, by simp⟩

theorem Calm.bind {rest : α → SmtpProg β} (hfirst : Calm allowed fails program)
    (hrest : ∀ value, Calm allowed fails (rest value)) : Calm allowed fails (program >>= rest) := by
  intro conn hconn
  refine ends_bind ((hfirst conn hconn).imp ?_)
  rintro (error | value) later ⟨hgrows, hsame, hfails⟩
  · exact ⟨hgrows, hsame, by rintro _ ⟨⟩; exact hfails error rfl⟩
  · refine (hrest value later (hconn.later hgrows hsame)).imp ?_
    rintro outcome last ⟨hgrows', hsame', hfails'⟩
    exact ⟨hgrows.trans hgrows', hsame.trans hsame', hfails'⟩

theorem calm_ite {condition : Prop} [Decidable condition] {yes no : SmtpProg α}
    (hyes : condition → Calm allowed fails yes) (hno : ¬ condition → Calm allowed fails no) :
    Calm allowed fails (if condition then yes else no) := by
  split
  next h => exact hyes h
  next h => exact hno h

theorem Calm.mono {allowed' : Payload → Prop} {fails' : Exc → Prop}
    (hcalm : Calm allowed fails program) (hallowed : ∀ payload, allowed payload → allowed' payload)
    (hfails : ∀ error, fails error → fails' error) : Calm allowed' fails' program := by
  intro conn hconn
  refine (hcalm conn hconn).imp ?_
  rintro outcome later ⟨hgrows, hsame, herror⟩
  exact ⟨hgrows.mono hallowed, hsame, fun error houtcome => hfails error (herror error houtcome)⟩

/-- A handler takes some errors over. -/
theorem Calm.handle {handler : Exc → Option (SmtpProg α)} {fails' : Exc → Prop}
    (hbody : Calm allowed fails' program)
    (hnone : ∀ error, fails' error → handler error = none → fails error)
    (hsome : ∀ error other, fails' error → handler error = some other →
      Calm allowed fails other) : Calm allowed fails (handle program handler) := by
  intro conn hconn
  refine ends_handle ((hbody conn hconn).imp ?_)
  rintro (error | value) later ⟨hgrows, hsame, hfails⟩
  · dsimp only
    cases hhandler : handler error with
    | none =>
        exact ⟨hgrows, hsame, by rintro _ ⟨⟩; exact hnone error (hfails error rfl) hhandler⟩
    | some other =>
        refine (hsome error other (hfails error rfl) hhandler later
          (hconn.later hgrows hsame)).imp ?_
        rintro outcome last ⟨hgrows', hsame', hfails'⟩
        exact ⟨hgrows.trans hgrows', hsame.trans hsame', hfails'⟩
  · exact ⟨hgrows, hsame, by simp⟩

end Calm

/-! ## Commands and replies -/

variable (server : Server)

theorem ends_sendall (payload : Payload) (conn : Conn) :
    Ends (sendall server payload) conn fun outcome later =>
      conn.Grows (· = payload) later ∧ conn.Same later ∧
        match outcome with
        | .ok _ => later.sock = conn.sock ∧ conn.sock ≠ none
        | .error error => error = .serverDisconnected ∧ later.sock = none := by
  unfold Ends sendall
  cases hsock : conn.sock with
  | none => exact ⟨.refl _ conn, .refl conn, rfl, hsock⟩
  | some tls =>
      dsimp only
      have hwire : ∀ sent ∈ [(⟨tls, payload, (server.writes conn.writes).isNone⟩ : Sent)],
          conn.sock = some sent.tls ∧ sent.payload = payload := by
        intro sent hsent
        obtain rfl := List.mem_singleton.mp hsent
        exact ⟨hsock, rfl⟩
      cases hfault : server.writes conn.writes with
      | none =>
          rw [hfault] at hwire
          dsimp only
          exact ⟨⟨⟨_, rfl, hwire⟩, .inl hsock.symm, rfl⟩, ⟨rfl, rfl, rfl⟩, rfl, by simp⟩
      | some fault =>
          rw [hfault] at hwire
          dsimp only
          exact ⟨⟨⟨_, rfl, hwire⟩, .inr rfl, rfl⟩, ⟨rfl, rfl, rfl⟩, rfl, rfl⟩

theorem Conn.Settled.onSend {conn : Conn} (hconn : conn.Settled) {payload : Payload}
    (hdata : payload.isData = false) : conn.onSend payload = conn := by
  unfold Conn.onSend
  split
  next hwatched =>
    have hready : conn.phase ≠ .ready := by
      obtain h | h | h := hconn hwatched
      · simp [h]
      · simp [h]
      · exact h.2
    simp [hdata, hready]
  next => rfl

theorem Conn.Settled.onReply {conn : Conn} (hconn : conn.Settled) (hsock : conn.sock ≠ none)
    (code : Int) : conn.onReply code = conn := by
  unfold Conn.onReply
  split
  next hwatched =>
    obtain h | h | h := hconn hwatched
    · rw [h]
    · rw [h]
    · exact absurd h.1 hsock
  next => rfl

/-- The errors of a command and its reply. -/
def Exc.isIo (payload : Payload) (error : Exc) : Prop :=
  error = .serverDisconnected ∨ error = .response 500 lineTooLong ∨
    error = .other ∧ payload.isAscii = false

/-- A write: the phase moves first, whatever becomes of the write. -/
theorem ends_send (payload : Payload) (conn : Conn) :
    Ends (send server payload) conn fun outcome later =>
      (conn.onSend payload).Grows (· = payload) later ∧ (conn.onSend payload).Same later ∧
        match outcome with
        | .ok _ => later.sock = conn.sock ∧ conn.sock ≠ none
        | .error error => error = .serverDisconnected ∧ later.sock = none ∨
            error = .other ∧ payload.isAscii = false := by
  have hsock : (conn.onSend payload).sock = conn.sock := by
    unfold Conn.onSend
    split <;> rfl
  unfold send
  refine ends_bind (ends_modify (ends_bind (ends_reads (ends_ite ?_ ?_))))
  · intro _
    refine (ends_sendall server payload (conn.onSend payload)).imp ?_
    rintro (error | value) later ⟨hgrows, hsame, hend⟩
    · exact ⟨hgrows, hsame, .inl hend⟩
    · exact ⟨hgrows, hsame, hend.1.trans hsock, hsock ▸ hend.2⟩
  · intro hencodable
    rw [Bool.not_eq_true, Bool.or_eq_false_iff] at hencodable
    exact ends_raise ⟨.refl _ _, .refl _, .inr ⟨rfl, hencodable.2⟩⟩

/-- A reply to a command: the connection that read it, or the closed one. -/
theorem ends_nextReply (conn : Conn) :
    Ends (nextReply server) conn fun outcome later =>
      match outcome with
      | .ok reply => later = Conn.onReply reply.1 { conn with reads := conn.reads + 1 }
      | .error error => later = Conn.close { conn with reads := conn.reads + 1 } ∧
          (error = .serverDisconnected ∨ error = .response 500 lineTooLong) := by
  unfold nextReply
  refine ends_bind (ends_reads (ends_bind (ends_modify ?_)))
  unfold Ends getreply
  cases readReply [] (server.replies conn.reads) with
  | lost => exact ⟨rfl, .inl rfl⟩
  | tooLong => exact ⟨rfl, .inr rfl⟩
  | reply code text => rfl

/-- A command outside a DATA exchange and its reply. -/
theorem calm_exchange {payload : Payload} (hdata : payload.isData = false) :
    Calm (· = payload) (Exc.isIo payload) (do send server payload; nextReply server) := by
  intro conn hconn
  refine ends_bind ((ends_send server payload conn).imp ?_)
  rw [hconn.onSend hdata]
  rintro (error | value) later ⟨hgrows, hsame, hend⟩
  · refine ⟨hgrows, hsame, ?_⟩
    rintro _ ⟨⟩
    obtain ⟨rfl, -⟩ | ⟨rfl, hascii⟩ := hend
    · exact .inl rfl
    · exact .inr (.inr ⟨rfl, hascii⟩)
  · have hlater : later.Settled := hconn.later hgrows hsame
    have hsettled : Conn.Settled { later with reads := later.reads + 1 } := hlater
    refine (ends_nextReply server later).imp ?_
    rintro (error | reply) last hlast
    · obtain ⟨rfl, herror⟩ := hlast
      refine ⟨⟨hgrows.wire, .inr rfl, hgrows.opened⟩,
        ⟨hsame.watched, hsame.phase, hsame.finalReply⟩, ?_⟩
      rintro _ ⟨⟩
      obtain rfl | rfl := herror
      · exact .inl rfl
      · exact .inr (.inl rfl)
    · have hopen : later.sock ≠ none := hend.1 ▸ hend.2
      obtain rfl : last = { later with reads := later.reads + 1 } :=
        hlast.trans (hsettled.onReply hopen reply.1)
      exact ⟨⟨hgrows.wire, hgrows.sock, hgrows.opened⟩,
        ⟨hsame.watched, hsame.phase, hsame.finalReply⟩, by simp⟩

/-! ## The commands outside a DATA exchange -/

def Payload.isContent : Payload → Bool
  | .content _ => true
  | _ => false

def Payload.isCommand : Payload → Bool
  | .command _ => true
  | _ => false

/-- The command does not start a DATA exchange. -/
def startsOther (command : Text) : Prop := Payload.isData (.command (command ++ crlf)) = false

instance (command : Text) : Decidable (startsOther command) :=
  inferInstanceAs (Decidable (_ = false))

theorem startsOther_append {command rest : Text} (hlength : 4 ≤ command.length)
    (hcommand : (text "data").isPrefixOf (command.map Char.toLower) = false) :
    startsOther (command ++ rest) := by
  rw [startsOther, Payload.isData, Bool.eq_false_iff]
  intro hdata
  have hwhole := List.isPrefixOf_iff_prefix.mp hdata
  rw [List.append_assoc, List.map_append] at hwhole
  have hfirst : text "data" <+: command.map Char.toLower :=
    List.prefix_of_prefix_length_le hwhole (List.prefix_append _ _) (by
      rw [List.length_map]
      exact hlength)
  exact absurd (List.isPrefixOf_iff_prefix.mpr hfirst) (by simp [hcommand])

theorem calm_docmd {command : Text} (hcommand : startsOther command) :
    Calm (fun payload => payload.isCommand = true) (fun error => error.isEarly = true)
      (docmd server command) := by
  unfold docmd
  refine calm_ite (fun _ => calm_raise rfl) fun _ => ?_
  refine (calm_exchange server hcommand).mono ?_ ?_
  · rintro _ rfl
    rfl
  · rintro _ (rfl | rfl | ⟨rfl, -⟩) <;> rfl

/-- A fixed command has no newline and only ASCII characters. -/
theorem calm_docmd_plain {command : Text} (hcommand : startsOther command)
    (hnewline : hasNewline command = false)
    (hascii : (Payload.command (command ++ crlf)).isAscii = true) :
    Calm (fun payload => payload.isCommand = true)
      (fun error => error = .serverDisconnected ∨ error = .response 500 lineTooLong)
      (docmd server command) := by
  unfold docmd
  refine calm_ite (fun h => absurd h (by simp [hnewline])) fun _ => ?_
  refine (calm_exchange server hcommand).mono ?_ ?_
  · rintro _ rfl
    rfl
  · rintro _ (rfl | rfl | ⟨rfl, hnot⟩)
    · exact .inl rfl
    · exact .inr rfl
    · rw [hascii] at hnot
      cases hnot

variable (client : Client)

abbrev CalmCommand {α : Type} (program : SmtpProg α) : Prop :=
  Calm (fun payload => payload.isCommand = true) (fun error => error.isEarly = true) program

theorem calm_helo : CalmCommand (helo server client) := by
  unfold helo
  refine (calm_docmd server (startsOther_append (by decide) (by decide))).bind fun reply => ?_
  refine Calm.bind (calm_modify ?_) fun _ => calm_pure reply
  exact fun conn => ⟨rfl, .inl rfl, rfl, ⟨rfl, rfl, rfl⟩⟩

theorem calm_ehlo : CalmCommand (ehlo server client) := by
  unfold ehlo
  refine Calm.bind (calm_modify fun conn => ⟨rfl, .inl rfl, rfl, ⟨rfl, rfl, rfl⟩⟩) fun _ => ?_
  refine (calm_docmd server (startsOther_append (by decide) (by decide))).bind fun reply => ?_
  refine calm_ite (fun _ => ?_) fun _ => ?_
  · refine Calm.bind (calm_modify fun conn => ⟨rfl, .inr rfl, rfl, ⟨rfl, rfl, rfl⟩⟩) fun _ => ?_
    exact calm_raise rfl
  · refine Calm.bind (calm_modify fun conn => ⟨rfl, .inl rfl, rfl, ⟨rfl, rfl, rfl⟩⟩) fun _ => ?_
    refine calm_ite (fun _ => ?_) fun _ => calm_pure reply
    refine Calm.bind (calm_modify fun conn => ⟨rfl, .inl rfl, rfl, ⟨rfl, rfl, rfl⟩⟩) fun _ => ?_
    exact calm_pure reply

theorem calm_ehloOrHeloIfNeeded : CalmCommand (ehloOrHeloIfNeeded server client) := by
  unfold ehloOrHeloIfNeeded
  refine (calm_reads _).bind fun needed => calm_ite (fun _ => ?_) fun _ => calm_pure _
  refine (calm_ehlo server client).bind fun first => calm_ite (fun _ => calm_pure _) fun _ => ?_
  refine (calm_helo server client).bind fun second => ?_
  exact calm_ite (fun _ => calm_pure _) fun _ => calm_raise rfl

theorem calm_innerRset : Calm (fun payload => payload.isCommand = true)
    (fun error => error.isLate = true) (innerRset server) := by
  have hrset : Calm (fun payload => payload.isCommand = true)
      (fun error => error = .serverDisconnected ∨ error = .response 500 lineTooLong)
      (rset server) := by
    unfold rset
    refine Calm.bind (calm_modify fun conn => ⟨rfl, .inl rfl, rfl, ⟨rfl, rfl, rfl⟩⟩) fun _ => ?_
    refine (calm_docmd_plain server ?_ (by decide) (by decide)).bind fun _ => calm_pure _
    decide
  refine hrset.handle ?_ ?_
  · rintro error (rfl | rfl) hnone
    · simp at hnone
    · rfl
  · intro error other _ hsome
    split at hsome
    next =>
      obtain rfl := Option.some.inj hsome
      exact calm_pure _
    next => cases hsome

theorem calm_afterRefusal (code : Int) : Calm (fun payload => payload.isCommand = true)
    (fun error => error.isLate = true) (afterRefusal server code) := by
  refine calm_ite (fun _ => ?_) fun _ => calm_innerRset server
  exact calm_modify fun conn => ⟨rfl, .inr rfl, rfl, ⟨rfl, rfl, rfl⟩⟩

theorem calm_mail (sender : Text) (options : List Text) :
    CalmCommand (mail server client sender options) := by
  unfold mail
  refine (calm_reads _).bind fun extended => (calm_reads _).bind fun utf8 => ?_
  refine calm_ite (fun _ => calm_raise rfl) fun _ => ?_
  refine Calm.bind (calm_modify fun conn => ⟨rfl, .inl rfl, rfl, ⟨rfl, rfl, rfl⟩⟩) fun _ => ?_
  dsimp only
  rw [List.append_assoc]
  exact calm_docmd server (startsOther_append (by decide) (by decide))

theorem calm_rcptAll (recipients : List Text) (refused : Refused) :
    CalmCommand (rcptAll server client refused recipients) := by
  induction recipients generalizing refused with
  | nil => exact calm_pure _
  | cons recipient rest ih =>
      refine (calm_docmd server (startsOther_append (by decide) (by decide))).bind fun reply => ?_
      refine calm_ite (fun _ => ?_) fun _ => ih _
      refine Calm.bind (calm_modify fun conn => ⟨rfl, .inr rfl, rfl, ⟨rfl, rfl, rfl⟩⟩) fun _ => ?_
      exact calm_raise rfl

/-! ## The login -/

abbrev CalmLogin {α : Type} (program : SmtpProg α) : Prop :=
  Calm (fun payload => payload.isContent = false) (fun error => error.isEarly = true) program

theorem CalmCommand.login {α : Type} {program : SmtpProg α} (hcalm : CalmCommand program) :
    CalmLogin program := by
  refine hcalm.mono ?_ fun _ h => h
  intro payload hcommand
  cases payload <;> first | rfl | cases hcommand

theorem calm_docredentials (response : Bytes) : CalmLogin (docredentials server response) := by
  have hdata : (Payload.credentials response).isData = false := rfl
  refine (calm_exchange server hdata).mono ?_ ?_
  · rintro _ rfl
    rfl
  · rintro _ (rfl | rfl | ⟨rfl, -⟩) <;> rfl

theorem calm_respond (mechanism : Mechanism) (challenge : Option Bytes) (count : ℕ) :
    CalmLogin (respond client mechanism challenge count) := by
  unfold respond
  split
  next => exact calm_raise rfl
  next => exact calm_pure _

theorem calm_challenges (mechanism : Mechanism) (left : ℕ) (reply : Int × Bytes) :
    CalmLogin (challenges server client mechanism left reply) := by
  induction left generalizing reply with
  | zero => exact calm_ite (fun _ => calm_raise rfl) fun _ => calm_pure _
  | succ left ih =>
      refine calm_ite (fun _ => ?_) fun _ => calm_pure _
      refine (calm_respond client mechanism _ _).bind fun response => ?_
      refine (calm_docredentials server response).bind fun next => ?_
      exact calm_ite (fun _ => calm_raise rfl) fun _ => ih next

theorem calm_auth (mechanism : Mechanism) : CalmLogin (auth server client mechanism) := by
  have hreply : CalmLogin (authReply server client mechanism) := by
    refine calm_ite (fun _ => ?_) fun _ => ?_
    · have hcommand : startsOther (text "AUTH " ++ mechanism.name) :=
        startsOther_append (by decide) (by decide)
      exact (CalmCommand.login (calm_docmd server hcommand)).bind fun first =>
        calm_challenges server client mechanism _ first
    · refine (calm_respond client mechanism _ _).bind fun response => ?_
      exact (calm_docredentials server response).bind fun first =>
        calm_challenges server client mechanism _ first
  exact hreply.bind fun reply => calm_ite (fun _ => calm_pure _) fun _ => calm_raise rfl

theorem calm_tryAuth (mechanisms : List Mechanism) {lastError : Exc}
    (hlast : lastError.isEarly = true) : CalmLogin (tryAuth server client lastError mechanisms) := by
  induction mechanisms generalizing lastError with
  | nil => exact calm_raise hlast
  | cons mechanism rest ih =>
      refine (calm_auth server client mechanism).handle (fun _ hearly _ => hearly) ?_
      intro error other hearly hsome
      split at hsome
      next =>
        obtain rfl := Option.some.inj hsome
        exact ih hearly
      next => cases hsome

theorem calm_login : CalmLogin (login server client) := by
  unfold login
  refine (CalmCommand.login (calm_ehloOrHeloIfNeeded server client)).bind fun _ => ?_
  refine (calm_reads _).bind fun advertised => ?_
  split
  next => exact calm_raise rfl
  next => exact calm_ite (fun _ => calm_raise rfl) fun _ => calm_tryAuth server client _ rfl

theorem calm_loginIf (hasCredentials : Bool) : CalmLogin (loginIf server client hasCredentials) :=
  calm_ite (fun _ => calm_login server client) fun _ => calm_pure _

/-! ## The end of the session -/

/-- Closing a session raises nothing. -/
theorem calm_closeQuietly : Calm (fun payload => payload.isCommand = true) (fun _ => False)
    (closeQuietly server) := by
  have hquit : Calm (fun payload => payload.isCommand = true)
      (fun error => error = .serverDisconnected ∨ error = .response 500 lineTooLong)
      (quit server) := by
    unfold quit
    refine (calm_docmd_plain server (by decide) (by decide) (by decide)).bind fun _ => ?_
    exact calm_modify fun conn => ⟨rfl, .inr rfl, rfl, ⟨rfl, rfl, rfl⟩⟩
  have hhandled : Calm (fun payload => payload.isCommand = true) (fun _ => False)
      (handle (quit server) fun error => if error.isOSError then some (pure ()) else none) := by
    refine hquit.handle ?_ ?_
    · rintro error (rfl | rfl) hnone <;> cases hnone
    · rintro error other (rfl | rfl) hsome <;>
        · obtain rfl := Option.some.inj hsome
          exact calm_pure _
  intro conn hconn
  refine ends_ensure ((hhandled conn hconn).imp ?_)
  rintro (error | value) later ⟨hgrows, hsame, hfails⟩
  · exact absurd rfl (fun h => hfails error h)
  · exact ends_modify ⟨hgrows.trans ⟨⟨[], by simp [Conn.close]⟩, .inr rfl, rfl⟩,
      ⟨hsame.watched, hsame.phase, hsame.finalReply⟩, by simp⟩

end Justup.Smtp

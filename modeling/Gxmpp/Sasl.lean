/-
`talk/xmpp/saslhandler.h`, `saslmechanism.cc`, `saslplainmechanism.h`,
`saslcookiemechanism.h`, `plainsaslhandler.h` and `xmppauth.cc`: who chooses the
authentication mechanism, and what the first message of each mechanism is.

`SaslHandler` and `SaslMechanism` are abstract classes; here each is a record of
the functions a subclass implements. The engine takes any `SaslHandler`; the two
that `XmppClient` installs are `plainSaslHandler` and `xmppAuth`.
-/
import Gxmpp.Constants
import Gxmpp.Jid

set_option autoImplicit false

namespace Gxmpp

/-! ## `talk/base/base64.cc` -/

/-- `Base64Table`. -/
def base64Table : Str := str "ABCDEFGHIJKLMNOPQRSTUVWXYZabcdefghijklmnopqrstuvwxyz0123456789+/"

/-- A character of the table. -/
def base64Char (c : UInt8) : UInt8 := base64Table.getD c.toNat 0

/-- The high six bits of a byte. -/
def hi6 (a : UInt8) : UInt8 := (a >>> (2 : UInt8)) &&& 0x3F

/-- The low two bits of a byte and the high four of the next. -/
def mid6 (a b : UInt8) : UInt8 := ((a <<< (4 : UInt8)) &&& 0x3F) ||| ((b >>> (4 : UInt8)) &&& 0x0F)

/-- The low four bits of a byte and the high two of the next. -/
def low6 (b c : UInt8) : UInt8 := ((b <<< (2 : UInt8)) &&& 0x3F) ||| ((c >>> (6 : UInt8)) &&& 0x03)

/-- `Base64::EncodeFromArray`: three bytes give four characters, one or two bytes
at the end are padded with '='. -/
def base64Encode : Str → Str
  | [] => []
  | [a] => [base64Char (hi6 a), base64Char (mid6 a 0), 0x3D, 0x3D]
  | [a, b] => [base64Char (hi6 a), base64Char (mid6 a b), base64Char (low6 b 0), 0x3D]
  | a :: b :: c :: rest =>
    [base64Char (hi6 a), base64Char (mid6 a b), base64Char (low6 b c),
     base64Char (c &&& 0x3F)] ++ base64Encode rest

/-! ## Mechanisms and handlers -/

/-- `SaslMechanism`. -/
structure SaslMechanism where
  /-- `GetMechanismName`. -/
  getMechanismName : Str
  /-- `StartSaslAuth`: the initial `<auth>`, or NULL. -/
  startSaslAuth : Option XmlElement
  /-- `HandleSaslChallenge`: the response to a challenge, or NULL. -/
  handleSaslChallenge : XmlElement → Option XmlElement

/-- `SaslHandler`. -/
structure SaslHandler where
  /-- `ChooseBestSaslMechanism(mechanisms, encrypted)`: empty when none is suitable. -/
  chooseBestSaslMechanism : List Str → Bool → Str
  /-- `CreateSaslMechanism`, NULL for a name that is not handled. -/
  createSaslMechanism : Str → Option SaslMechanism

/-- `SaslMechanism::HandleSaslChallenge`, which both mechanisms inherit: abort. -/
def abortOnChallenge (_ : XmlElement) : Option XmlElement :=
  some (XmlElement.new QN_SASL_ABORT true)

/-- `SaslPlainMechanism`. -/
def saslPlainMechanism (user_jid : Jid) (password : Str) : SaslMechanism where
  getMechanismName := str "PLAIN"
  startSaslAuth :=
    let credential : Str := [0] ++ user_jid.node ++ [0] ++ password
    some (((XmlElement.new QN_SASL_AUTH true).addAttr QN_MECHANISM (str "PLAIN")).addText
      (base64Encode credential))
  handleSaslChallenge := abortOnChallenge

/-- `SaslCookieMechanism`. -/
def saslCookieMechanism (mechanism username cookie token_service : Str) : SaslMechanism where
  getMechanismName := mechanism
  startSaslAuth :=
    let el := (XmlElement.new QN_SASL_AUTH true).addAttr QN_MECHANISM mechanism
    let el := if token_service.isEmpty then el
      else el.addAttr QN_GOOGLE_AUTH_SERVICE token_service
    let credential : Str := [0] ++ username ++ [0] ++ cookie
    some (el.addText (base64Encode credential))
  handleSaslChallenge := abortOnChallenge

/-- `PlainSaslHandler`. -/
def plainSaslHandler (jid : Jid) (password : Str) (allow_plain : Bool) : SaslHandler where
  chooseBestSaslMechanism mechanisms encrypted :=
    if !encrypted && !allow_plain then STR_EMPTY
    else if str "PLAIN" ∈ mechanisms then str "PLAIN"
    else STR_EMPTY
  createSaslMechanism mechanism :=
    if mechanism = str "PLAIN" then some (saslPlainMechanism jid password) else none

/-- `XmppAuth`. -/
structure XmppAuth where
  jid : Jid
  passwd : Str
  auth_mechanism : Str
  auth_token : Str
  done : Bool

namespace XmppAuth

/-- `XmppAuth::XmppAuth`. -/
def init : XmppAuth where
  jid := .empty
  passwd := STR_EMPTY
  auth_mechanism := STR_EMPTY
  auth_token := STR_EMPTY
  done := false

/-- `XmppAuth::StartPreXmppAuth`. -/
def startPreXmppAuth (_a : XmppAuth) (jid : Jid) (pass auth_mechanism auth_token : Str) :
    XmppAuth where
  jid := jid
  passwd := pass
  auth_mechanism := auth_mechanism
  auth_token := auth_token
  done := true

/-- `XmppAuth::ChooseBestSaslMechanism`. -/
def chooseBestSaslMechanism (a : XmppAuth) (mechanisms : List Str) (_encrypted : Bool) : Str :=
  if a.auth_mechanism = AUTH_MECHANISM_OAUTH2 && AUTH_MECHANISM_OAUTH2 ∈ mechanisms then
    AUTH_MECHANISM_OAUTH2
  else if a.auth_mechanism = AUTH_MECHANISM_GOOGLE_TOKEN
      && AUTH_MECHANISM_GOOGLE_TOKEN ∈ mechanisms then
    AUTH_MECHANISM_GOOGLE_TOKEN
  else if a.auth_mechanism = AUTH_MECHANISM_GOOGLE_COOKIE
      && AUTH_MECHANISM_GOOGLE_COOKIE ∈ mechanisms then
    AUTH_MECHANISM_GOOGLE_COOKIE
  else if AUTH_MECHANISM_PLAIN ∈ mechanisms then AUTH_MECHANISM_PLAIN
  else STR_EMPTY

/-- `XmppAuth::CreateSaslMechanism`. -/
def createSaslMechanism (a : XmppAuth) (mechanism : Str) : Option SaslMechanism :=
  if mechanism = AUTH_MECHANISM_OAUTH2 then
    some (saslCookieMechanism mechanism a.jid.toStr a.auth_token (str "oauth2"))
  else if mechanism = AUTH_MECHANISM_GOOGLE_TOKEN then
    some (saslCookieMechanism mechanism a.jid.toStr a.auth_token STR_EMPTY)
  else if mechanism = AUTH_MECHANISM_PLAIN then some (saslPlainMechanism a.jid a.passwd)
  else none

/-- `XmppAuth` as the engine sees it. -/
def handler (a : XmppAuth) : SaslHandler where
  chooseBestSaslMechanism := a.chooseBestSaslMechanism
  createSaslMechanism := a.createSaslMechanism

end XmppAuth

example : base64Encode (str "pleasure.") = str "cGxlYXN1cmUu" := by decide
example : base64Encode (str "asure.") = str "YXN1cmUu" := by decide
example : base64Encode (str "leasure") = str "bGVhc3VyZQ==" := by decide

end Gxmpp

/-
`talk/xmpp/constants.cc`: the names the engine compares and builds.
-/
import Gxmpp.XmlElement

set_option autoImplicit false

namespace Gxmpp

def NS_CLIENT : Str := str "jabber:client"
def NS_STREAM : Str := str "http://etherx.jabber.org/streams"
def NS_TLS : Str := str "urn:ietf:params:xml:ns:xmpp-tls"
def NS_SASL : Str := str "urn:ietf:params:xml:ns:xmpp-sasl"
def NS_BIND : Str := str "urn:ietf:params:xml:ns:xmpp-bind"
def NS_SESSION : Str := str "urn:ietf:params:xml:ns:xmpp-session"
def NS_STANZA : Str := str "urn:ietf:params:xml:ns:xmpp-stanzas"
def NS_ROSTER : Str := str "jabber:iq:roster"
def NS_GOOGLE_AUTH_PROTOCOL : Str := str "http://www.google.com/talk/protocol/auth"

def QN_STREAM_STREAM : QName := ⟨NS_STREAM, str "stream"⟩
def QN_STREAM_FEATURES : QName := ⟨NS_STREAM, str "features"⟩
def QN_STREAM_ERROR : QName := ⟨NS_STREAM, str "error"⟩

def QN_TLS_STARTTLS : QName := ⟨NS_TLS, str "starttls"⟩
def QN_TLS_PROCEED : QName := ⟨NS_TLS, str "proceed"⟩

def QN_SASL_MECHANISMS : QName := ⟨NS_SASL, str "mechanisms"⟩
def QN_SASL_MECHANISM : QName := ⟨NS_SASL, str "mechanism"⟩
def QN_SASL_AUTH : QName := ⟨NS_SASL, str "auth"⟩
def QN_SASL_CHALLENGE : QName := ⟨NS_SASL, str "challenge"⟩
def QN_SASL_ABORT : QName := ⟨NS_SASL, str "abort"⟩
def QN_SASL_SUCCESS : QName := ⟨NS_SASL, str "success"⟩

def QN_GOOGLE_AUTH_CLIENT_USES_FULL_BIND_RESULT : QName :=
  ⟨NS_GOOGLE_AUTH_PROTOCOL, str "client-uses-full-bind-result"⟩
def QN_GOOGLE_ALLOW_NON_GOOGLE_ID_XMPP_LOGIN : QName :=
  ⟨NS_GOOGLE_AUTH_PROTOCOL, str "allow-non-google-login"⟩
def QN_GOOGLE_AUTH_SERVICE : QName := ⟨NS_GOOGLE_AUTH_PROTOCOL, str "service"⟩

def QN_STANZA_TEXT : QName := ⟨NS_STANZA, str "text"⟩

def QN_BIND_BIND : QName := ⟨NS_BIND, str "bind"⟩
def QN_BIND_RESOURCE : QName := ⟨NS_BIND, str "resource"⟩
def QN_BIND_JID : QName := ⟨NS_BIND, str "jid"⟩

def QN_IQ : QName := ⟨NS_CLIENT, str "iq"⟩
def QN_ERROR : QName := ⟨NS_CLIENT, str "error"⟩

def QN_MESSAGE : QName := ⟨NS_CLIENT, str "message"⟩
def QN_PRESENCE : QName := ⟨NS_CLIENT, str "presence"⟩

def QN_ROSTER_QUERY : QName := ⟨NS_ROSTER, str "query"⟩
def QN_ROSTER_ITEM : QName := ⟨NS_ROSTER, str "item"⟩

def QN_SESSION_SESSION : QName := ⟨NS_SESSION, str "session"⟩

def QN_VERSION : QName := ⟨STR_EMPTY, str "version"⟩
def QN_TO : QName := ⟨STR_EMPTY, str "to"⟩
def QN_FROM : QName := ⟨STR_EMPTY, str "from"⟩
def QN_TYPE : QName := ⟨STR_EMPTY, str "type"⟩
def QN_ID : QName := ⟨STR_EMPTY, str "id"⟩
def QN_CODE : QName := ⟨STR_EMPTY, str "code"⟩
def QN_JID : QName := ⟨STR_EMPTY, str "jid"⟩
def QN_NAME : QName := ⟨STR_EMPTY, str "name"⟩
def QN_NODE : QName := ⟨STR_EMPTY, str "node"⟩
def QN_SUBSCRIPTION : QName := ⟨STR_EMPTY, str "subscription"⟩
def QN_MECHANISM : QName := ⟨STR_EMPTY, str "mechanism"⟩

def STR_RESULT : Str := str "result"
def STR_ERROR : Str := str "error"

def AUTH_MECHANISM_GOOGLE_COOKIE : Str := str "X-GOOGLE-COOKIE"
def AUTH_MECHANISM_GOOGLE_TOKEN : Str := str "X-GOOGLE-TOKEN"
def AUTH_MECHANISM_OAUTH2 : Str := str "X-OAUTH2"
def AUTH_MECHANISM_PLAIN : Str := str "PLAIN"

def STR_GMAIL_COM : Str := str "gmail.com"
def STR_GOOGLEMAIL_COM : Str := str "googlemail.com"
def STR_TALK_GOOGLE_COM : Str := str "talk.google.com"
def STR_TALKX_L_GOOGLE_COM : Str := str "talkx.l.google.com"
def STR_XMPP_GOOGLE_COM : Str := str "xmpp.google.com"
def STR_XMPPX_L_GOOGLE_COM : Str := str "xmppx.l.google.com"

end Gxmpp

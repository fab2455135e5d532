import LiveProbe.Capture.Value
import LiveProbe.Text.Front
import LiveProbe.Text.Lowercase

/-!
Redaction. A name is redacted if it has the same skeleton as a listed one, and a type if a
configured pattern matches its whole name.
-/
namespace LiveProbe

def builtinNames : List String :=
  ["2fa", "accesstoken", "aiohttpsession", "apikey", "apisecret", "apisignature", "appkey",
   "applicationkey", "auth", "authorization", "authtoken", "ccnumber", "certificatepin",
   "cipher", "clientid", "clientsecret", "connectionstring", "connectsid", "cookie",
   "credentials", "creditcard", "csrf", "csrftoken", "cvv", "databaseurl", "dburl",
   "encryptionkey", "encryptionkeyid", "env", "geolocation", "gpgkey", "ipaddress", "jti", "jwt",
   "licensekey", "masterkey", "mysqlpwd", "nonce", "oauth", "oauthtoken", "otp", "passhash",
   "passwd", "password", "passwordb", "pemfile", "pgpkey", "phpsessid", "pin", "pincode",
   "pkcs8", "privatekey", "publickey", "pwd", "recaptchakey", "refreshtoken", "routingnumber",
   "salt", "secret", "secretkey", "secrettoken", "securityanswer", "securitycode",
   "securityquestion", "serviceaccountcredentials", "session", "sessionid", "sessionkey",
   "setcookie", "signature", "signaturekey", "sshkey", "ssn", "symfony", "token",
   "transactionid", "twiliotoken", "usersession", "voterid", "xapikey", "xauthtoken",
   "xcsrftoken", "xforwardedfor", "xrealip", "xsrf", "xsrftoken"]

/-- A configured type name; a star at its end stands for any text without line breaks. -/
inductive TypePattern where
  | exact (name : String)
  | startsWith (start : String)
  deriving DecidableEq, Repr

structure Redactor where
  skeletons : List String
  types : List TypePattern

def isNameSeparator (c : Char) : Bool := c == '_' || c == '$' || c == '@'

/-- What is left of a name without blanks around it, letter case and separators. -/
def skeleton (name : String) : String :=
  String.ofList ((Text.lower (Text.trim name.toList)).filter fun c => !isNameSeparator c)

namespace TypePattern

def ofName (name : String) : TypePattern :=
  match name.toList.reverse with
  | '*' :: start => .startsWith (String.ofList start.reverse)
  | _ => .exact name

def accepts (p : TypePattern) (name : String) : Bool :=
  match p with
  | .exact n => n == name
  | .startsWith start => match Text.after? start.toList name.toList with
    | some rest => rest.all (· ≠ '\n')
    | none => false

end TypePattern

namespace Redactor

def ofNames (names types : List String) : Redactor where
  skeletons := (builtinNames ++ names).map skeleton
  types := types.map TypePattern.ofName

def redactsName (r : Redactor) (name : String) : Bool := r.skeletons.contains (skeleton name)

/-- The empty type name is never redacted. -/
def redactsTypeName (r : Redactor) (typeName : String) : Bool :=
  typeName != "" && r.types.any (·.accepts typeName)

def redactsType (r : Redactor) (value : Value) : Bool := r.redactsTypeName value.typeName

end Redactor
end LiveProbe

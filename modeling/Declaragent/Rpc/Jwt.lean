import Declaragent.Library.Base64Url
import Declaragent.Library.JsNumber
import Declaragent.Library.Utf8Stream

/-!
# Rpc — signed tokens

A token is three parts in base64: a header, the claims and a signature.  The signature is checked
by the cryptography of the runtime, which is a parameter.  Times are compared as the rationals
that the claims spell.

* `decodeJwt_compact`: a token that was put together is taken apart.
-/

namespace Declaragent.Rpc.Jwt
open JsonText
open Utf8 (Bytes)

/-- What the runtime words: the error of a text that is no base64 or no JSON, the one of a property
that is read of `null`, and `String(value)`. -/
structure Wording where
  atobError : List Char → String
  syntaxError : List Char → String
  nullProperty : String
  display : JsValue → String

/-! ### The parts of a token -/

/-- A header has the name of an algorithm. -/
structure DecodedJwt where
  header : JsValue
  alg : String
  alg_eq : header.get "alg" = .str alg
  claims : JsValue
  signingInput : String
  signature : Bytes

def SUPPORTED_ALGS : List String :=
  ["RS256", "RS384", "RS512", "ES256", "ES384", "ES512", "PS256", "PS384", "PS512"]

section
variable (F : NumberFormat) (W : Wording)

def b64urlDecode (input : List Char) : Except String Bytes :=
  match Base64Url.atob ((input ++ Base64Url.padding input).map Base64Url.plain) with
  | some bytes => .ok bytes
  | none => .error (W.atobError input)

def decodeJson (bytes : Bytes) : Except String JsValue :=
  match jsonParse F (String.ofList (Utf8.TextDecoder.decodeWhole bytes)) with
  | some value => .ok value
  | none => .error (W.syntaxError (Utf8.TextDecoder.decodeWhole bytes))

def decodePart (part : List Char) : Except String JsValue :=
  match b64urlDecode W part with
  | .ok bytes => decodeJson F W bytes
  | .error err => .error err

def decodeJwt (token : String) : Except String DecodedJwt :=
  match token.toList.splitOn '.' with
  | [hPart, cPart, sPart] =>
    match decodePart F W hPart, decodePart F W cPart with
    | .ok header, .ok claims =>
      match halg : header.get "alg" with
      | .str alg =>
        match b64urlDecode W sPart with
        | .ok signature =>
          .ok ⟨header, alg, halg, claims, String.ofList (hPart ++ '.' :: cPart), signature⟩
        | .error err => .error err
      | _ => .error "JWT header missing `alg`"
    | .error err, _ | .ok _, .error err =>
      .error ("JWT header/claims JSON decode failed: " ++ err)
  | _ => .error "JWT must have three dot-separated parts"

end

/-! ### The signature -/

structure ImportAlg where
  name : String
  hash : Option String := none
  namedCurve : Option String := none

structure VerifyAlg where
  name : String
  hash : Option String := none
  saltLength : Option Nat := none

def algToImport (alg : String) : Except String (ImportAlg × VerifyAlg) :=
  let rsa (hash : String) : ImportAlg × VerifyAlg :=
    ({ name := "RSASSA-PKCS1-v1_5", hash := some hash }, { name := "RSASSA-PKCS1-v1_5" })
  let pss (hash : String) (saltLength : Nat) : ImportAlg × VerifyAlg :=
    ({ name := "RSA-PSS", hash := some hash }, { name := "RSA-PSS", saltLength := some saltLength })
  let ecdsa (namedCurve hash : String) : ImportAlg × VerifyAlg :=
    ({ name := "ECDSA", namedCurve := some namedCurve }, { name := "ECDSA", hash := some hash })
  match alg with
  | "RS256" => .ok (rsa "SHA-256")
  | "RS384" => .ok (rsa "SHA-384")
  | "RS512" => .ok (rsa "SHA-512")
  | "PS256" => .ok (pss "SHA-256" 32)
  | "PS384" => .ok (pss "SHA-384" 48)
  | "PS512" => .ok (pss "SHA-512" 64)
  | "ES256" => .ok (ecdsa "P-256" "SHA-256")
  | "ES384" => .ok (ecdsa "P-384" "SHA-384")
  | "ES512" => .ok (ecdsa "P-521" "SHA-512")
  | _ => .error ("alg \"" ++ alg ++ "\" is not supported")

/-- The cryptography of the runtime. -/
structure SubtleCrypto (CryptoKey : Type) where
  importKey : JsValue → ImportAlg → Except String CryptoKey
  verify : VerifyAlg → CryptoKey → Bytes → Bytes → Except String Bool

section
variable {CryptoKey : Type} (subtle : SubtleCrypto CryptoKey)

def importJwk (key : JsValue) (alg : String) : Except String CryptoKey :=
  if alg ∈ SUPPORTED_ALGS then
    match algToImport alg with
    | .ok (importAlg, _) => subtle.importKey key importAlg
    | .error err => .error err
  else .error ("alg \"" ++ alg ++ "\" is not supported")

def verifyJwtSignature (decoded : DecodedJwt) (cryptoKey : CryptoKey) : Except String Bool :=
  match algToImport decoded.alg with
  | .ok (_, verifyAlg) =>
    subtle.verify verifyAlg cryptoKey decoded.signature (Utf8.encode decoded.signingInput.toList)
  | .error err => .error err

end

/-! ### The claims -/

/-- A value of type `number`. -/
def asNumber : JsValue → Option Numeral
  | .num n => some (.finite n.value)
  | .nonFinite kind => some (.nonFinite kind)
  | _ => none

/-- `q > n + shift`. -/
def isAbove (q : ℚ) (n : Numeral) (shift : ℚ) : Bool :=
  match n with
  | .finite x => x + shift < q
  | .nonFinite (.infinity negative) => negative
  | .nonFinite .nan => false

/-- `n > q`. -/
def isBelow (q : ℚ) (n : Numeral) : Bool :=
  match n with
  | .finite x => q < x
  | .nonFinite (.infinity negative) => !negative
  | .nonFinite .nan => false

inductive TimeCode where
  | expired
  | notYetValid
  | missingClaim
  deriving DecidableEq

def TimeCode.text : TimeCode → String
  | .expired => "expired"
  | .notYetValid => "not-yet-valid"
  | .missingClaim => "missing-claim"

/-- The code and the field of what fails, if anything does. -/
def checkTimeClaims (claims : JsValue) (nowSec clockSkewSec : Int) : Option (TimeCode × String) :=
  match asNumber (claims.get "exp"), asNumber (claims.get "iat") with
  | none, _ => some (.missingClaim, "exp")
  | some _, none => some (.missingClaim, "iat")
  | some exp, some iat =>
    if isAbove nowSec exp clockSkewSec then some (.expired, "exp")
    else if isBelow (nowSec + clockSkewSec : Int) iat then some (.notYetValid, "iat")
    else
      match asNumber (claims.get "nbf") with
      | some nbf =>
        if isBelow (nowSec + clockSkewSec : Int) nbf then some (.notYetValid, "nbf") else none
      | none => none

/-- `value === text`. -/
def isText (text : String) : JsValue → Bool
  | .str s => s = text
  | _ => false

def audienceMatches (claims : JsValue) (expected : String) : Bool :=
  match claims.get "aud" with
  | .str aud => aud = expected
  | .arr aud => aud.any (isText expected)
  | _ => false

/-- `text.split(/\s+/)`, without what is empty. -/
def words (text : String) : List String := (Numeral.words text.toList).map String.ofList

def extractScopes (claims : JsValue) : List String :=
  (match claims.get "scope" with
    | .str scope => words scope
    | _ => []) ++
  match claims.get "scp" with
  | .str scp => words scp
  | .arr scp => scp.filterMap fun s =>
    match s with
    | .str s => if s.length = 0 then none else some s
    | _ => none
  | _ => []

/-! ### Tokens are taken apart -/

/-- An object as a part of a token. -/
def part (fields : List (String × Json)) : List Char :=
  Base64Url.encode (Utf8.encode (stringify (.obj fields)).toList)

/-- A token of a header, claims and a signature. -/
def compact (header claims : List (String × Json)) (signature : Bytes) : String :=
  String.ofList (part header ++ '.' :: (part claims ++ '.' :: Base64Url.encode signature))

variable {F : NumberFormat} {W : Wording}

theorem b64urlDecode_encode (bytes : Bytes) :
    b64urlDecode W (Base64Url.encode bytes) = .ok bytes := by
  rw [b64urlDecode, Base64Url.atob_padded]

theorem decodePart_part (fields : List (String × Json)) :
    decodePart F W (part fields) = .ok (evaluate F (.obj fields)) := by
  have hhead : (stringify (.obj fields)).toList.head? ≠ some '\uFEFF' := by
    have hbrace : ('{' : Char) ≠ '\uFEFF' := by decide
    rw [stringify, String.toList_ofList, render, List.head?_cons]
    exact fun heq => hbrace (Option.some.inj heq)
  rw [decodePart, part, b64urlDecode_encode]
  dsimp only
  rw [decodeJson, Utf8.TextDecoder.decodeWhole_encode hhead, String.ofList_toList,
    jsonParse_stringify]

theorem splitOn_parts {first second third : List Char} (hfirst : '.' ∉ first)
    (hsecond : '.' ∉ second) (hthird : '.' ∉ third) :
    (first ++ '.' :: (second ++ '.' :: third)).splitOn '.' = [first, second, third] := by
  rw [List.splitOn_append_cons_self_of_not_mem hfirst,
    List.splitOn_append_cons_self_of_not_mem hsecond, List.splitOn_eq_singleton hthird]

/-- **A token that was put together is taken apart.** -/
theorem decodeJwt_compact {header claims : List (String × Json)} {headerValue claimsValue : JsValue}
    {alg : String} (hheader : evaluate F (.obj header) = headerValue)
    (hclaims : evaluate F (.obj claims) = claimsValue)
    (halg : headerValue.get "alg" = .str alg) (signature : Bytes) :
    decodeJwt F W (compact header claims signature) =
      .ok ⟨headerValue, alg, halg, claimsValue,
        String.ofList (part header ++ '.' :: part claims), signature⟩ := by
  subst hheader hclaims
  have hdot (bytes : Bytes) : '.' ∉ Base64Url.encode bytes :=
    Base64Url.notMem_encode (by decide) bytes
  have hparts : (part header ++ '.' :: (part claims ++ '.' :: Base64Url.encode signature)).splitOn
      '.' = [part header, part claims, Base64Url.encode signature] :=
    splitOn_parts (hdot _) (hdot _) (hdot _)
  rw [decodeJwt, compact, String.toList_ofList, hparts]
  dsimp only
  rw [decodePart_part, decodePart_part]
  dsimp only
  split
  · rename_i alg' halg'
    obtain rfl : alg' = alg := by
      rw [halg] at halg'
      exact JsValue.str.inj halg'.symm
    rw [b64urlDecode_encode]
  · rename_i hother
    exact absurd halg (hother alg)

end Declaragent.Rpc.Jwt

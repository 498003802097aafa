import Declaragent.Events.Types
import Declaragent.Library.JsNumber
import Declaragent.Rpc.Signing

/-!
# Sources — the signature of a webhook

A request to a trigger with a secret is accepted when its time stamp is within the replay window
and the signature is that of the body.  The keyed hash, the reading of dates and the environment
are parameters.

* `verifyHmac_ok_iff`: what is accepted.
* `protected_iff`: when replayed bodies are refused.
-/

namespace Declaragent.Sources
open Events Rpc JsonText

structure WebhookDeps where
  hmac : String → String → List UInt8
  /-- `Date.parse`, in milliseconds. -/
  dateParse : String → Option Int
  env : String → Option String

/-- `Date.now()`: no later than the last time of a date. -/
structure Clock where
  ms : Nat
  bounded : ms ≤ 8640000000000000

def Clock.sec (now : Clock) : Int := now.ms / 1000

def lowerCase (text : String) : String := String.ofList (text.toList.map Char.toLower)

/-- The headers of a request, by their names in lower case. -/
abbrev Headers := String → Option String

def Headers.get (headers : Headers) (name : String) : Option String := headers (lowerCase name)

structure WebhookRequest where
  headers : Headers
  rawBody : String

/-- The `auth` of a trigger that checks signatures. -/
structure HmacAuth where
  secretEnv : String
  headerName : String
  timestampHeader : Option { header : String // header ≠ "" } := none
  replayWindowSec : Option { sec : ℚ // 0 < sec } := none

def DEFAULT_WEBHOOK_REPLAY_WINDOW_SEC : ℚ := 300

def HmacAuth.windowSec (auth : HmacAuth) : ℚ :=
  (auth.replayWindowSec.map (·.1)).getD DEFAULT_WEBHOOK_REPLAY_WINDOW_SEC

/-- Decimals from here on are read as infinite. -/
def infiniteFrom : Nat := 2 ^ 970 * (2 ^ 54 - 1)

def digitsOnly (cs : List Char) : Bool := cs ≠ [] && cs.all Char.isDigit

/-- Digits are seconds, or milliseconds when there are more than ten. -/
def parseTimestamp (W : WebhookDeps) (raw : String) : Option Int :=
  let trimmed := Numeral.trim raw.toList
  if digitsOnly trimmed then
    let n := Nat.ofDigitChars 10 trimmed 0
    if infiniteFrom ≤ n then none
    else some (if trimmed.length ≤ 10 then n else n / 1000 : Nat)
  else (W.dateParse (String.ofList trimmed)).map (· / 1000)

def isHexDigit (c : Char) : Bool := c.isDigit || ('a' ≤ c && c ≤ 'f')

/-- The digits of `/^sha256=([a-f0-9]+)$/i`, in lower case. -/
def matchSignature (headerValue : String) : Option String :=
  let lower := headerValue.toList.map Char.toLower
  let digits := lower.drop 7
  if lower.take 7 = "sha256=".toList ∧ digits ≠ [] ∧ digits.all isHexDigit then
    some (String.ofList digits)
  else none

section
variable (W : WebhookDeps) (auth : HmacAuth)

/-- The replay window, where the trigger has a header for the time. -/
def checkTimestamp (headers : Headers) (now : Clock) : Except String Unit :=
  match auth.timestampHeader with
  | none => .ok ()
  | some header =>
    match headers.get header with
    | none | some "" => .error "missing timestamp header"
    | some tsHeader =>
      match parseTimestamp W tsHeader with
      | none => .error "malformed timestamp header"
      | some tsSec =>
        if auth.windowSec < |((now.sec - tsSec : Int) : ℚ)| then .error "stale timestamp"
        else .ok ()

def checkSignature (secret : String) (req : WebhookRequest) : Except String EventAuth :=
  match req.headers.get auth.headerName with
  | none | some "" => .error "missing signature header"
  | some headerValue =>
    match matchSignature headerValue with
    | none => .error "malformed signature header"
    | some presentedHex =>
      if timingSafeEqual presentedHex (hmacSha256Hex W.hmac secret req.rawBody) then
        .ok (.hmac presentedHex)
      else .error "bad signature"

/-- `verifyAuth` of a trigger with a secret. -/
def verifyHmac (req : WebhookRequest) (now : Clock) : Except String EventAuth :=
  match W.env auth.secretEnv with
  | none | some "" => .error ("secret env \"" ++ auth.secretEnv ++ "\" not set")
  | some secret =>
    match checkTimestamp W auth req.headers now with
    | .error reason => .error reason
    | .ok () => checkSignature W auth secret req

/-! ### What a trigger is protected from -/

/-- A text that is a signature of the body. -/
def Signs (headerValue rawBody : String) : Prop :=
  ∃ secret, W.env auth.secretEnv = some secret ∧ secret ≠ "" ∧
    matchSignature headerValue = some (hmacSha256Hex W.hmac secret rawBody)

/-- A text that is a time in the replay window. -/
def Timely (tsHeader : String) (now : Clock) : Prop :=
  ∃ ts, parseTimestamp W tsHeader = some ts ∧ |((now.sec - ts : Int) : ℚ)| ≤ auth.windowSec

/-- The signature of a request is that of its body. -/
def Signed (req : WebhookRequest) : Prop :=
  ∃ headerValue, req.headers.get auth.headerName = some headerValue ∧
    Signs W auth headerValue req.rawBody

/-- A request that the sender signed. -/
structure GenuineRequest extends WebhookRequest where
  signed : Signed W auth toWebhookRequest

variable {W auth}

/-- The time of a request itself is in the window. -/
def FreshRequest (W : WebhookDeps) (auth : HmacAuth) (header : String) (now : Clock)
    (req : WebhookRequest) : Prop :=
  ∃ tsHeader, req.headers.get header = some tsHeader ∧ tsHeader ≠ "" ∧ Timely W auth tsHeader now

/-- The body was signed by the sender in a request that is still in the window. -/
def SignedLately (header : String) (seen : List (GenuineRequest W auth)) (now : Clock)
    (rawBody : String) : Prop :=
  ∃ g ∈ seen, g.rawBody = rawBody ∧ FreshRequest W auth header now g.toWebhookRequest

/-- A request that can be made without the secret: what it has a signature of was signed in a
request that was seen. -/
def Unforged (seen : List (GenuineRequest W auth)) (req : WebhookRequest) : Prop :=
  Signed W auth req → ∃ g ∈ seen, g.rawBody = req.rawBody

/-- Of the requests that can be made without the secret, those are accepted whose bodies were
signed lately. -/
def Protected (header : String) (seen : List (GenuineRequest W auth)) (now : Clock) : Prop :=
  ∀ req, Unforged seen req → (verifyHmac W auth req now).isOk = true →
    SignedLately header seen now req.rawBody

/-- The two headers are one, and no text is both a signature of the body and a time in the
window. -/
def Inseparable (W : WebhookDeps) (auth : HmacAuth) (header : String) (now : Clock)
    (rawBody : String) : Prop :=
  lowerCase header = lowerCase auth.headerName ∧
    ∀ value, Signs W auth value rawBody → ¬ (value ≠ "" ∧ Timely W auth value now)

end

/-! ### What is accepted -/

section
variable {W : WebhookDeps} {auth : HmacAuth} {header : { header : String // header ≠ "" }}
  {req : WebhookRequest} {now : Clock}

theorem checkTimestamp_ok_iff (h : auth.timestampHeader = some header) :
    checkTimestamp W auth req.headers now = .ok () ↔ FreshRequest W auth header.1 now req := by
  unfold checkTimestamp FreshRequest Timely
  rw [h]
  dsimp only
  split
  · rename_i hnone
    simp [hnone]
  · rename_i hempty
    simp [hempty]
  · rename_i tsHeader hne hget
    have hne : tsHeader ≠ "" := hne
    rw [hget]
    cases hparse : parseTimestamp W tsHeader with
    | none => simp [hparse]
    | some ts => simp [hparse, hne, not_lt]

theorem matchSignature_empty : matchSignature "" = none := by decide

theorem checkSignature_ok_iff {secret : String} (henv : W.env auth.secretEnv = some secret)
    (hsecret : secret ≠ "") :
    (checkSignature W auth secret req).isOk = true ↔ Signed W auth req := by
  have hsigns : ∀ value, Signs W auth value req.rawBody ↔
      matchSignature value = some (hmacSha256Hex W.hmac secret req.rawBody) := by
    intro value
    constructor
    · rintro ⟨secret', henv', -, hmatch⟩
      obtain rfl := Option.some.inj (henv.symm.trans henv')
      exact hmatch
    · exact fun hmatch => ⟨secret, henv, hsecret, hmatch⟩
  unfold checkSignature Signed
  simp only [hsigns]
  split
  · rename_i hnone
    simp [hnone, Except.isOk, Except.toBool]
  · rename_i hempty
    simp [hempty, matchSignature_empty, Except.isOk, Except.toBool]
  · rename_i value _ hget
    rw [hget]
    cases hmatch : matchSignature value with
    | none => simp [hmatch, Except.isOk, Except.toBool]
    | some hex =>
      dsimp only
      split
      · rename_i hequal
        simp [hmatch, timingSafeEqual_iff.mp hequal, Except.isOk, Except.toBool]
      · rename_i hdiffer
        have hne := fun he => hdiffer (timingSafeEqual_iff.mpr he)
        simpa [hmatch, Except.isOk, Except.toBool] using hne

/-- **A request is accepted** when its time stamp is in the window and its body is signed. -/
theorem verifyHmac_ok_iff (h : auth.timestampHeader = some header) :
    (verifyHmac W auth req now).isOk = true ↔
      FreshRequest W auth header.1 now req ∧ Signed W auth req := by
  have hunset : (∀ secret, W.env auth.secretEnv = some secret → secret = "") →
      ¬ Signed W auth req := by
    rintro hunset ⟨_, _, secret, henv, hne, -⟩
    exact hne (hunset secret henv)
  unfold verifyHmac
  split
  · rename_i hnone
    refine iff_of_false Bool.false_ne_true fun hs => hunset (fun secret henv => ?_) hs.2
    cases hnone.symm.trans henv
  · rename_i hempty
    refine iff_of_false Bool.false_ne_true fun hs => hunset (fun secret henv => ?_) hs.2
    exact (Option.some.inj (hempty.symm.trans henv)).symm
  · rename_i secret hne henv
    have hsecret : secret ≠ "" := hne
    rw [← checkTimestamp_ok_iff h, ← checkSignature_ok_iff henv hsecret]
    cases hcheck : checkTimestamp W auth req.headers now with
    | error reason => simp [Except.isOk, Except.toBool]
    | ok u => simp

/-! ### The time as a header -/

/-- A text that is read as the time. -/
def nowText (now : Clock) : String := "00000000000" ++ toString now.ms

theorem parseTimestamp_nowText (W : WebhookDeps) (now : Clock) :
    parseTimestamp W (nowText now) = some now.sec := by
  have hlist : (nowText now).toList = List.replicate 11 '0' ++ Nat.toDigits 10 now.ms := by
    rw [nowText, String.toList_append, Nat.toString_eq_ofList_toDigits, String.toList_ofList,
      String.toList_ofList]
    rfl
  have hdigits : ∀ c ∈ (nowText now).toList, c.isDigit = true := by
    intro c hc
    rw [hlist] at hc
    rcases List.mem_append.mp hc with hc | hc
    · rw [List.eq_of_mem_replicate hc]
      rfl
    · exact isDigit_of_mem_toDigits c hc
  have hvalue : Nat.ofDigitChars 10 (nowText now).toList 0 = now.ms := by
    rw [hlist, Nat.ofDigitChars_append]
    exact Nat.ofDigitChars_ten_toDigits
  have hlength : 10 < (nowText now).toList.length := by
    rw [hlist, List.length_append, List.length_replicate]
    omega
  have hfinite : now.ms < infiniteFrom := by
    have hbound : now.ms < 2 ^ 54 - 1 := Nat.lt_of_le_of_lt now.bounded (by decide)
    unfold infiniteFrom
    exact Nat.lt_of_lt_of_le hbound (Nat.le_mul_of_pos_left _ (Nat.two_pow_pos _))
  have honly : digitsOnly (nowText now).toList = true := by
    unfold digitsOnly
    rw [Bool.and_eq_true, decide_eq_true_eq, List.all_eq_true]
    refine ⟨fun hnil => ?_, hdigits⟩
    rw [hnil] at hlength
    cases hlength
  unfold parseTimestamp
  rw [Numeral.trim_digits hdigits]
  dsimp only
  rw [if_pos honly, hvalue, if_neg (Nat.not_le.mpr hfinite), if_neg (Nat.not_le.mpr hlength)]
  rfl

theorem timely_nowText (W : WebhookDeps) (auth : HmacAuth) (now : Clock) :
    Timely W auth (nowText now) now := by
  refine ⟨now.sec, parseTimestamp_nowText W now, ?_⟩
  have hpos : 0 ≤ auth.windowSec := by
    unfold HmacAuth.windowSec
    cases auth.replayWindowSec with
    | none => exact (by decide : (0 : ℚ) ≤ DEFAULT_WEBHOOK_REPLAY_WINDOW_SEC)
    | some sec => exact Rat.le_of_lt sec.2
  simpa using hpos

theorem nowText_ne_empty (now : Clock) : nowText now ≠ "" := by
  intro h
  have hlength := congrArg (·.toList.length) h
  simp [nowText] at hlength

/-- When a request that names the time it was sent at is in the window. -/
theorem freshRequest_iff {name : String} {sent : Clock}
    (hget : req.headers.get name = some (nowText sent)) :
    FreshRequest W auth name now req ↔ |((now.sec - sent.sec : Int) : ℚ)| ≤ auth.windowSec := by
  constructor
  · rintro ⟨tsHeader, hts, -, ts, hparse, hwindow⟩
    have hheader : nowText sent = tsHeader := Option.some.inj (hget.symm.trans hts)
    rw [← hheader, parseTimestamp_nowText] at hparse
    rw [Option.some.inj hparse]
    exact hwindow
  · intro hwindow
    exact ⟨_, hget, nowText_ne_empty sent, _, parseTimestamp_nowText W sent, hwindow⟩

/-! ### Replayed bodies -/

variable {seen : List (GenuineRequest W auth)}

/-- A body that was seen with its signature is accepted with any time in the window. -/
theorem replay_accepted (h : auth.timestampHeader = some header) {g : GenuineRequest W auth}
    {headers : Headers} {value tsHeader : String}
    (hvalue : headers.get auth.headerName = some value) (hsigns : Signs W auth value g.rawBody)
    (hts : headers.get header.1 = some tsHeader) (hne : tsHeader ≠ "")
    (htimely : Timely W auth tsHeader now) :
    (verifyHmac W auth ⟨headers, g.rawBody⟩ now).isOk = true :=
  (verifyHmac_ok_iff h).mpr ⟨⟨tsHeader, hts, hne, htimely⟩, ⟨value, hvalue, hsigns⟩⟩

/-- Where the headers are two, the time of a replay can be chosen. -/
theorem lately_of_protected (h : auth.timestampHeader = some header)
    (hprotected : Protected header.1 seen now) {g : GenuineRequest W auth} (hg : g ∈ seen)
    (htwo : lowerCase header.1 ≠ lowerCase auth.headerName) :
    SignedLately header.1 seen now g.rawBody := by
  obtain ⟨value, -, hsigns⟩ := g.signed
  let headers : Headers := fun name =>
    if name = lowerCase auth.headerName then some value else some (nowText now)
  have hvalue : headers.get auth.headerName = some value := if_pos rfl
  have hts : headers.get header.1 = some (nowText now) := if_neg htwo
  exact hprotected ⟨headers, g.rawBody⟩ (fun _ => ⟨g, hg, rfl⟩)
    (replay_accepted h hvalue hsigns hts (nowText_ne_empty now) (timely_nowText W auth now))

theorem lately_or_inseparable (h : auth.timestampHeader = some header)
    (hprotected : Protected header.1 seen now) {g : GenuineRequest W auth} (hg : g ∈ seen) :
    SignedLately header.1 seen now g.rawBody ∨ Inseparable W auth header.1 now g.rawBody := by
  by_cases hone : lowerCase header.1 = lowerCase auth.headerName
  · by_cases hboth : ∃ value, Signs W auth value g.rawBody ∧ value ≠ "" ∧ Timely W auth value now
    · obtain ⟨value, hsigns, hne, htimely⟩ := hboth
      refine .inl (hprotected ⟨fun _ => some value, g.rawBody⟩ (fun _ => ⟨g, hg, rfl⟩) ?_)
      exact replay_accepted h rfl hsigns rfl hne htimely
    · exact .inr ⟨hone, fun value hsigns hv => hboth ⟨value, hsigns, hv⟩⟩
  · exact .inl (lately_of_protected h hprotected hg hone)

theorem protected_of_lately (h : auth.timestampHeader = some header)
    (hlately : ∀ g ∈ seen, SignedLately header.1 seen now g.rawBody ∨
      Inseparable W auth header.1 now g.rawBody) : Protected header.1 seen now := by
  intro req hunforged haccepted
  obtain ⟨⟨tsHeader, hts, hne, htimely⟩, hsigned⟩ := (verifyHmac_ok_iff h).mp haccepted
  obtain ⟨g, hg, hbody⟩ := hunforged hsigned
  rw [← hbody]
  rcases hlately g hg with hl | ⟨hone, hnone⟩
  · exact hl
  · -- the one header is both, which the body has no text for
    obtain ⟨value, hvalue, hsigns⟩ := hsigned
    have hsame : value = tsHeader := by
      unfold Headers.get at hvalue hts
      rw [hone] at hts
      exact Option.some.inj (hvalue.symm.trans hts)
    rw [hsame, ← hbody] at hsigns
    exact absurd ⟨hne, htimely⟩ (hnone tsHeader hsigns)

end

/-- **A trigger is protected if and only if every body that was seen with its signature has been
signed lately.** -/
theorem protected_iff {W : WebhookDeps} {auth : HmacAuth}
    {header : { header : String // header ≠ "" }}
    (h : auth.timestampHeader = some header) (seen : List (GenuineRequest W auth)) (now : Clock) :
    Protected header.1 seen now ↔ ∀ g ∈ seen, SignedLately header.1 seen now g.rawBody ∨
      Inseparable W auth header.1 now g.rawBody :=
  ⟨fun hprotected _ hg => lately_or_inseparable h hprotected hg, protected_of_lately h⟩

/-! ### A captured request -/

/-- A keyed hash that keeps the key and the body. -/
def plainDeps : WebhookDeps where
  hmac secret body := (secret ++ ":" ++ body).toList.map fun c => c.toNat.toUInt8
  dateParse _ := none
  env _ := some "s"

def signedTrigger : HmacAuth where
  secretEnv := "HOOK_SECRET"
  headerName := "X-Signature"
  timestampHeader := some ⟨"X-Timestamp", by decide⟩

def sentAt : Clock := ⟨1000000, by decide⟩

/-- A quarter of an hour later. -/
def replayedAt : Clock := ⟨1900000, by decide⟩

def paidHeaders : Headers := fun name =>
  if name = "x-signature" then
    some ("sha256=" ++ hmacSha256Hex plainDeps.hmac "s" "paid")
  else if name = "x-timestamp" then some (nowText sentAt)
  else none

def paid : GenuineRequest plainDeps signedTrigger where
  headers := paidHeaders
  rawBody := "paid"
  signed := ⟨"sha256=" ++ hmacSha256Hex plainDeps.hmac "s" "paid", by decide, "s", rfl, by decide,
    by decide⟩

theorem paid_timestamp : paid.headers.get "X-Timestamp" = some (nowText sentAt) := by
  have hname : lowerCase "X-Timestamp" = "x-timestamp" := by decide
  show paidHeaders (lowerCase "X-Timestamp") = _
  rw [hname, paidHeaders, if_neg (by decide), if_pos rfl]

theorem paid_fresh_iff (now : Clock) :
    FreshRequest plainDeps signedTrigger "X-Timestamp" now paid.toWebhookRequest ↔
      |((now.sec - 1000 : Int) : ℚ)| ≤ 300 := by
  rw [freshRequest_iff paid_timestamp]
  have hsec : sentAt.sec = 1000 := rfl
  have hwindow : signedTrigger.windowSec = 300 := rfl
  rw [hsec, hwindow]

theorem signedTrigger_header :
    signedTrigger.timestampHeader = some ⟨"X-Timestamp", by decide⟩ := rfl

/-- A captured request is accepted again with a new time, long after its own. -/
theorem captured_request_accepted :
    FreshRequest plainDeps signedTrigger "X-Timestamp" sentAt paid.toWebhookRequest ∧
    ¬ FreshRequest plainDeps signedTrigger "X-Timestamp" replayedAt paid.toWebhookRequest ∧
    ¬ Protected "X-Timestamp" [paid] replayedAt := by
  have hstale : ¬ FreshRequest plainDeps signedTrigger "X-Timestamp" replayedAt
      paid.toWebhookRequest := by
    rw [paid_fresh_iff]
    decide
  refine ⟨(paid_fresh_iff sentAt).mpr (by decide), hstale, fun h => ?_⟩
  obtain ⟨g, hg, -, hfresh⟩ := lately_of_protected signedTrigger_header h List.mem_cons_self
    (by decide)
  rw [List.mem_singleton.mp hg] at hfresh
  exact hstale hfresh

/-- While its own time is in the window, it may be. -/
theorem protected_iff_paid : Protected "X-Timestamp" [paid] sentAt := by
  refine (protected_iff signedTrigger_header [paid] sentAt).mpr fun g hg => .inl ?_
  rw [List.mem_singleton.mp hg]
  exact ⟨paid, List.mem_cons_self, rfl, (paid_fresh_iff sentAt).mpr (by decide)⟩

end Declaragent.Sources

import SmtpSink.Base64Proofs
import SmtpSink.DeliveryProofs

/-! # Credentials — what AUTH takes for the user name and the password

    A PLAIN response is the base64 text of an authorization identity, a user
    name and a password with NUL bytes in between; LOGIN sends the last two on
    lines of their own.

    * `decides_iff` — a response is decided by that grammar unless it has surplus
      fields, or bytes that are not UTF-8 and are read as the configured text;
    * `auth_paths_agree` — the three exchanges lead to one session.

    The base64 decoder is outside the repository; where a result depends on it,
    its hypothesis says which texts are decoded. -/

namespace SmtpCredentials

open Utf8 Unicode SmtpReader SmtpRecord SmtpSession SmtpTurn Runs SmtpConnection SmtpDelivery

/-- The byte string of a PLAIN response. -/
def plainResponse (authzid username password : Bytes) : Bytes :=
  authzid ++ 0 :: (username ++ 0 :: password)

/-! ## Fields -/

/-- A field holds no separator. -/
theorem notMem_of_mem_splitOn {a : UInt8} {l : Bytes} :
    ∀ f ∈ l.splitOn a, a ∉ f := by
  induction l with
  | nil =>
      intro f hf
      rw [List.splitOn_nil, List.mem_singleton] at hf
      rw [hf]
      exact List.not_mem_nil
  | cons x l ih =>
      intro f hf
      rw [List.splitOn_cons_eq_if_modifyHead] at hf
      by_cases hx : (x == a) = true
      · rw [if_pos hx] at hf
        rcases List.mem_cons.mp hf with rfl | hf
        · exact List.not_mem_nil
        · exact ih f hf
      · rw [if_neg hx] at hf
        cases hsplit : l.splitOn a with
        | nil => exact absurd hsplit (List.splitOn_ne_nil a l)
        | cons g gs =>
            rw [hsplit, List.modifyHead_cons] at hf
            rw [hsplit] at ih
            rcases List.mem_cons.mp hf with rfl | hf
            · rw [List.mem_cons, not_or]
              exact ⟨fun h => hx (beq_iff_eq.mpr h.symm), ih g List.mem_cons_self⟩
            · exact ih f (List.mem_cons_of_mem _ hf)

/-- The fields of a response, and the response of three fields. -/
theorem splitOn_eq_three {d z u p : Bytes} :
    d.splitOn 0 = [z, u, p] ↔ d = plainResponse z u p ∧ 0 ∉ z ∧ 0 ∉ u ∧ 0 ∉ p := by
  have hjoin : List.intercalate [0] [z, u, p] = plainResponse z u p := by
    simp [plainResponse]
  constructor
  · intro h
    have hd : List.intercalate [0] (d.splitOn 0) = d := List.intercalate_splitOn 0
    rw [h, hjoin] at hd
    have hfields := notMem_of_mem_splitOn (a := 0) (l := d)
    rw [h] at hfields
    exact ⟨hd.symm, hfields z (by simp), hfields u (by simp), hfields p (by simp)⟩
  · rintro ⟨rfl, hz, hu, hp⟩
    rw [← hjoin]
    refine List.splitOn_intercalate 0 ?_ (List.cons_ne_nil _ _)
    intro f hf
    simp only [List.mem_cons, List.not_mem_nil, or_false] at hf
    rcases hf with rfl | rfl | rfl
    · exact hz
    · exact hu
    · exact hp

/-- The second and the third field of the bytes read as the given texts. -/
def ReadsAs (u p : Text) (d : Bytes) : Prop :=
  ∃ z f g more, d.splitOn 0 = z :: f :: g :: more ∧ fromUtf8Lossy f = u ∧ fromUtf8Lossy g = p

/-- They do, but there are further fields, or one of them is not UTF-8. -/
def Slips (u p : Text) (d : Bytes) : Prop :=
  ∃ z f g more, d.splitOn 0 = z :: f :: g :: more ∧ fromUtf8Lossy f = u ∧ fromUtf8Lossy g = p
    ∧ (more ≠ [] ∨ decode? f = none ∨ decode? g = none)

/-- The line is the base64 text of an authorization identity and the credentials. -/
def Grammatical (u p line : Text) : Prop :=
  ∃ z, 0 ∉ z ∧ trim line = Base64.encode (plainResponse z (encode u) (encode p))

/-- The line is answered as the grammar says: 235 and `authenticated` are for
    the configured credentials, and 535 without a change for everything else. -/
def DecidesByGrammar (env : Env) (cfg : SmtpConfig) (u p line : Text) (s : Session) : Prop :=
  (Grammatical u p line ∧ verifyPlainAuth env cfg line s
    = say { s with authenticated := true } ["235 Authentication successful"])
  ∨ (¬ Grammatical u p line
    ∧ verifyPlainAuth env cfg line s = say s ["535 Authentication failed"])

section

variable {env : Env} {cfg : SmtpConfig} {u p line : Text} {s : Session}

theorem nul_notMem_encode {t : Text} (h : '\x00' ∉ t) : 0 ∉ encode t :=
  fun hmem => h ((asciiByte_mem_encode (a := '\x00') (by decide) t).mp hmem)

/-- The credentials of a line, where the decoder is the canonical one. -/
theorem plainCredentials_iff
    (hb : ∀ t d, env.base64Decode t = some d ↔ t = Base64.encode d) :
    plainCredentials env line = some (u, p)
      ↔ ∃ d, trim line = Base64.encode d ∧ ReadsAs u p d := by
  rw [plainCredentials]
  cases hd : env.base64Decode (trim line) with
  | none =>
      constructor
      · intro h
        cases h
      · rintro ⟨d, ht, -⟩
        cases hd.symm.trans ((hb _ _).mpr ht)
  | some d =>
      have ht := (hb _ _).mp hd
      dsimp only
      constructor
      · intro h
        refine ⟨d, ht, ?_⟩
        rcases hs : d.splitOn 0 with _ | ⟨z, _ | ⟨f, _ | ⟨g, more⟩⟩⟩
        · rw [hs] at h
          cases h
        · rw [hs] at h
          cases h
        · rw [hs] at h
          cases h
        · rw [hs] at h
          cases h
          exact ⟨z, f, g, more, hs, rfl, rfl⟩
      · rintro ⟨d', ht', z, f, g, more, hs, rfl, rfl⟩
        obtain rfl := Base64.encode_injective (ht.symm.trans ht')
        rw [hs]

/-- A grammatical line carries the credentials, and no other does unless it
    slips through. -/
theorem grammatical_iff (hu : '\x00' ∉ u) (hp : '\x00' ∉ p) :
    Grammatical u p line
      ↔ ∃ d, trim line = Base64.encode d ∧ ReadsAs u p d ∧ ¬ Slips u p d := by
  constructor
  · rintro ⟨z, hz, ht⟩
    have hs := splitOn_eq_three.mpr
      ⟨rfl, hz, nul_notMem_encode hu, nul_notMem_encode hp⟩
    refine ⟨_, ht, ⟨z, _, _, [], hs, fromUtf8Lossy_encode u, fromUtf8Lossy_encode p⟩, ?_⟩
    rintro ⟨z', f, g, more, hs', -, -, hslip⟩
    rw [hs] at hs'
    cases hs'
    rcases hslip with h | h | h
    · exact h rfl
    · exact nomatch (decode?_encode u).symm.trans h
    · exact nomatch (decode?_encode p).symm.trans h
  · rintro ⟨d, ht, ⟨z, f, g, more, hs, rfl, rfl⟩, hslip⟩
    have hno : ∀ P : Prop, (P → more ≠ [] ∨ decode? f = none ∨ decode? g = none) → ¬ P :=
      fun P hP h => hslip ⟨z, f, g, more, hs, rfl, rfl, hP h⟩
    obtain rfl : more = [] := by
      by_contra h
      exact hno _ Or.inl h
    have hread : ∀ b, decode? b ≠ none → encode (fromUtf8Lossy b) = b := by
      intro b hb
      obtain ⟨t, ht⟩ := Option.ne_none_iff_exists'.mp hb
      rw [← encode_of_decode? ht, fromUtf8Lossy_encode]
    obtain ⟨rfl, hz, -, -⟩ := splitOn_eq_three.mp hs
    refine ⟨z, hz, ?_⟩
    rw [hread f (hno _ (fun h => Or.inr (Or.inl h))),
      hread g (hno _ (fun h => Or.inr (Or.inr h)))]
    exact ht

/-- A line is admitted where it reads as the configured credentials. -/
theorem admits_iff (hb : ∀ t d, env.base64Decode t = some d ↔ t = Base64.encode d)
    (hu : cfg.authUsername = some u) (hp : cfg.authPassword = some p) (line : Text) :
    (∃ u' p', plainCredentials env line = some (u', p') ∧ cfg.Admits u' p')
      ↔ ∃ d, trim line = Base64.encode d ∧ ReadsAs u p d := by
  rw [← plainCredentials_iff hb]
  constructor
  · rintro ⟨u', p', h, hu', hp'⟩
    rw [hu] at hu'
    rw [hp] at hp'
    cases hu'
    cases hp'
    exact h
  · exact fun h => ⟨u, p, h, hu, hp⟩

theorem readsAs_of_slips {d : Bytes} (h : Slips u p d) : ReadsAs u p d := by
  obtain ⟨z, f, g, more, hs, hf, hg, -⟩ := h
  exact ⟨z, f, g, more, hs, hf, hg⟩

/-- An acceptance is no refusal. -/
theorem accepted_ne_refused (s s' : Session) : say s ["235 Authentication successful"]
    ≠ say s' ["535 Authentication failed"] := by
  intro h
  have hreply := (List.cons.inj (congrArg Response.events h)).1
  exact absurd (reply_injective hreply) (by decide)

/-- **PLAIN is decided by its grammar exactly where nothing slips through**: the
    line is not the base64 text of bytes whose second and third field read as
    the configured credentials although there are more fields or one of the two
    is not UTF-8. -/
theorem decides_iff (hb : ∀ t d, env.base64Decode t = some d ↔ t = Base64.encode d)
    (hu : cfg.authUsername = some u) (hp : cfg.authPassword = some p)
    (hun : '\x00' ∉ u) (hpn : '\x00' ∉ p) (line : Text) (s : Session) :
    DecidesByGrammar env cfg u p line s
      ↔ ∀ d, trim line = Base64.encode d → ¬ Slips u p d := by
  have hadmits := admits_iff hb hu hp line
  rw [DecidesByGrammar, grammatical_iff hun hpn]
  rcases verifyPlainAuth_cases env cfg line s with ⟨hyes, hr⟩ | ⟨hno, hr⟩
  · -- accepted: the line is grammatical unless it slips through
    obtain ⟨d, ht, hreads⟩ := hadmits.mp hyes
    rw [hr]
    constructor
    · rintro (⟨⟨d', ht', -, hslip⟩, -⟩ | ⟨-, h⟩) d'' ht''
      · obtain rfl := Base64.encode_injective (ht'.symm.trans ht'')
        exact hslip
      · exact absurd h (accepted_ne_refused _ _)
    · intro h
      exact Or.inl ⟨⟨d, ht, hreads, h d ht⟩, rfl⟩
  · -- refused: it does not even read as the credentials
    rw [hr]
    constructor
    · intro _ d ht hslip
      exact hno (hadmits.mpr ⟨d, ht, readsAs_of_slips hslip⟩)
    · intro _
      exact Or.inr ⟨fun ⟨d, ht, hreads, _⟩ => hno (hadmits.mpr ⟨d, ht, hreads⟩), rfl⟩

/-- Credentials without a replacement character are only missed by surplus
    fields. -/
theorem slips_iff_surplus (hu : '\uFFFD' ∉ u) (hp : '\uFFFD' ∉ p) {d : Bytes} :
    Slips u p d ↔ ReadsAs u p d ∧ 3 < (d.splitOn 0).length := by
  constructor
  · rintro ⟨z, f, g, more, hs, rfl, rfl, hslip⟩
    refine ⟨⟨z, f, g, more, hs, rfl, rfl⟩, ?_⟩
    rw [hs]
    rcases hslip with h | h | h
    · have := List.length_pos_of_ne_nil h
      simp only [List.length_cons]
      omega
    · exact nomatch (decode?_of_lossy hu).symm.trans h
    · exact nomatch (decode?_of_lossy hp).symm.trans h
  · rintro ⟨⟨z, f, g, more, hs, hf, hg⟩, hlen⟩
    refine ⟨z, f, g, more, hs, hf, hg, Or.inl ?_⟩
    rintro rfl
    rw [hs] at hlen
    exact absurd hlen (by simp)

end

/-- The canonical decoder. -/
def base64Env : Env := ⟨Base64.decode, fun _ => none, fun _ => none⟩

/-- A server with one account. -/
def accountConfig : SmtpConfig := ⟨[], false, true, some ['u'], some ['p'], false⟩

theorem decides_account :
    DecidesByGrammar base64Env accountConfig ['u'] ['p'] "AHUAcA==".toList
      (Session.new true false) := by
  have hcanonical : ∀ l d, base64Env.base64Decode l = some d ↔ l = Base64.encode d :=
    fun _ _ => Base64.decode_eq_some
  refine (decides_iff hcanonical rfl rfl (by decide) (by decide) _ _).mpr ?_
  have hline : trim "AHUAcA==".toList = Base64.encode [0, 117, 0, 112] := by decide +kernel
  intro d hd
  obtain rfl := Base64.encode_injective (hline.symm.trans hd)
  rw [slips_iff_surplus (by decide) (by decide)]
  exact fun h => absurd h.2 (by decide +kernel)

/-- A response with a fourth field is accepted. -/
theorem surplus_accepted :
    let line := Base64.encode [0, 117, 0, 112, 0, 120]
    verifyPlainAuth base64Env accountConfig line (Session.new true false)
        = say { Session.new true false with authenticated := true }
          ["235 Authentication successful"]
      ∧ ¬ DecidesByGrammar base64Env accountConfig ['u'] ['p'] line (Session.new true false) := by
  have hcarries : plainCredentials base64Env (Base64.encode [0, 117, 0, 112, 0, 120])
      = some (['u'], ['p']) := by
    decide +kernel
  have hline : trim (Base64.encode [0, 117, 0, 112, 0, 120])
      = Base64.encode [0, 117, 0, 112, 0, 120] := by
    decide +kernel
  have haccepted : verifyPlainAuth base64Env accountConfig
      (Base64.encode [0, 117, 0, 112, 0, 120]) (Session.new true false)
      = say { Session.new true false with authenticated := true }
        ["235 Authentication successful"] := by
    rcases verifyPlainAuth_cases base64Env accountConfig
        (Base64.encode [0, 117, 0, 112, 0, 120]) (Session.new true false) with
      ⟨-, h⟩ | ⟨hno, -⟩
    · exact h
    · exact absurd ⟨_, _, hcarries, rfl, rfl⟩ hno
  refine ⟨haccepted, ?_⟩
  rintro (⟨⟨z, hz, ht⟩, -⟩ | ⟨-, h⟩)
  · have hd := Base64.encode_injective (hline.symm.trans ht)
    have hfields := splitOn_eq_three.mpr ⟨hd, hz, by decide +kernel, by decide +kernel⟩
    have hlen : (List.splitOn (0 : UInt8) [0, 117, 0, 112, 0, 120]).length = 4 := by decide +kernel
    rw [hfields] at hlen
    exact absurd hlen (by simp)
  · rw [haccepted] at h
    have hreply := (List.cons.inj (congrArg Response.events h)).1
    exact absurd (reply_injective hreply) (by decide)

/-! ## The three exchanges -/

/-- The session after the user name and the password were presented. -/
def presented (cfg : SmtpConfig) (u p : Bytes) (s : Session) : Session :=
  if cfg.authUsername = some (fromUtf8Lossy u) ∧ cfg.authPassword = some (fromUtf8Lossy p) then
    { s with authenticated := true }
  else s

/-- The reply to them. -/
def verdict (cfg : SmtpConfig) (u p : Bytes) : List String :=
  if cfg.authUsername = some (fromUtf8Lossy u) ∧ cfg.authPassword = some (fromUtf8Lossy p) then
    ["235 Authentication successful"]
  else ["535 Authentication failed"]

/-- Lines as a client sends them. -/
def sent (lines : List Text) : Bytes := encode (lines.flatMap (· ++ ['\r', '\n']))

/-- AUTH PLAIN with an initial response. -/
def inlinePlain (w m : Text) (u p : Bytes) : List Text :=
  [w ++ ' ' :: (m ++ ' ' :: Base64.encode (plainResponse [] u p))]

/-- AUTH PLAIN, and the response on the next line. -/
def promptedPlain (w m : Text) (u p : Bytes) : List Text :=
  [w ++ ' ' :: m, Base64.encode (plainResponse [] u p)]

/-- AUTH LOGIN, and the user name and the password on a line each. -/
def login (w m : Text) (u p : Bytes) : List Text :=
  [w ++ ' ' :: m, Base64.encode u, Base64.encode p]

section

variable {env : Env} {cfg : SmtpConfig} {ph : Phase} {s : Session} {stamp : Stamp}
  {rest : Bytes} {u p : Bytes} {w m x : Text}

theorem presented_authState (cfg : SmtpConfig) (u p : Bytes) (s : Session) :
    (presented cfg u p s).authState = s.authState := by
  rw [presented]
  split_ifs <;> rfl

theorem presented_envelope (cfg : SmtpConfig) (u p : Bytes) (s : Session) :
    (presented cfg u p s).envelope = s.envelope := by
  rw [presented]
  split_ifs <;> rfl

/-- A base64 text is not trimmed. -/
theorem trim_base64 (d : Bytes) : trim (Base64.encode d) = Base64.encode d :=
  trim_eq_self (fun c hc => Base64.encode_visible d c (List.mem_of_mem_head? hc))
    (fun c hc => Base64.encode_visible d c (List.mem_of_mem_getLast? hc))

/-- The PLAIN response of an encoded pair. -/
theorem verifyPlainAuth_response (hb : ∀ d, env.base64Decode (Base64.encode d) = some d)
    (hu : 0 ∉ u) (hp : 0 ∉ p) (s : Session) :
    verifyPlainAuth env cfg (Base64.encode (plainResponse [] u p)) s
      = say (presented cfg u p s) (verdict cfg u p) := by
  have hs := splitOn_eq_three.mpr ⟨rfl, List.not_mem_nil, hu, hp⟩
  rw [verifyPlainAuth, trim_base64, hb]
  dsimp only
  rw [hs, verifyParts, dif_pos (by simp), presented, verdict]
  simp only [List.getElem_cons_succ, List.getElem_cons_zero, eq_comm (b := cfg.authUsername),
    eq_comm (b := cfg.authPassword)]
  split_ifs <;> rfl

/-- An AUTH command goes to the words of its line. -/
theorem interpret_auth (hs : s.authState = .none) (hauth : cfg.authUsername ≠ none)
    (hw : Spelled w "AUTH") (hne : x ≠ [])
    (hlast : ∀ c ∈ x.getLast?, isWhitespace c = false) :
    interpret env cfg stamp (w ++ ' ' :: x ++ ['\r', '\n']) rest s
      = ⟨authParts env cfg (w :: splitWhitespace x) s, rest⟩ := by
  have hvisible := hw.visible (by decide)
  have hwne : w ≠ [] := by
    rintro rfl
    exact nomatch hw
  have htrim : trim (w ++ ' ' :: x ++ ['\r', '\n']) = w ++ ' ' :: x := by
    rw [trim_append_whitespace _ _ (by decide)]
    refine trim_eq_self (fun c hc => ?_) (fun c hc => ?_)
    · rw [List.head?_append_of_ne_nil _ hwne] at hc
      exact hvisible c (List.mem_of_mem_head? hc)
    · have hend : (w ++ ' ' :: x).getLast? = x.getLast? := by
        rw [List.getLast?_append_of_ne_nil _ (List.cons_ne_nil _ _),
          List.getLast?_cons_of_ne_nil hne]
      rw [hend] at hc
      exact hlast c hc
  have hupper : toUppercase (w ++ ' ' :: x) = "AUTH ".toList ++ toUppercase x := by
    have hword := hw.toUppercase_eq (by decide)
    rw [toUppercase] at hword ⊢
    rw [List.flatMap_append, hword]
    rfl
  have hverb : verb? s (w ++ ' ' :: x ++ ['\r', '\n']) = some .auth := by
    rw [verb?_of_idle hs, htrim, hupper]
    rfl
  have hsome : cfg.authUsername.isNone = false :=
    Option.isNone_eq_false_iff.mpr (Option.isSome_iff_ne_none.mpr hauth)
  rw [interpret_of_verb? hverb, command, htrim, auth, hsome, if_neg Bool.false_ne_true,
    splitWhitespace_cons hvisible hwne]

/-- Words behind the verb. -/
theorem splitWhitespace_mechanism {mech : String} (hm : Spelled m mech)
    (hmech : ∀ c ∈ mech.toList, c.isUpper = true) (hne : mech.toList ≠ []) :
    splitWhitespace m = [m] ∧ ∀ v : Text, (∀ c ∈ v, isWhitespace c = false) → v ≠ [] →
      splitWhitespace (m ++ ' ' :: v) = [m, v] := by
  have hvisible := hm.visible hmech
  have hmne : m ≠ [] := by
    rintro rfl
    exact hne hm.symm
  refine ⟨splitWhitespace_word hvisible hmne, fun v hv hvne => ?_⟩
  rw [splitWhitespace_cons hvisible hmne, splitWhitespace_word hv hvne]

/-- A line without a line feed, as it is sent. -/
theorem sent_cons (l : Text) (lines : List Text) (rest : Bytes) :
    sent (l :: lines) ++ rest = encode (l ++ ['\r'] ++ ['\n']) ++ (sent lines ++ rest) := by
  rw [sent, List.flatMap_cons, encode_append, List.append_assoc, List.append_assoc l]
  rfl

/-- A line that is answered, first of those that are sent. -/
theorem line_leads (replies : List String) (lines : List Text) {l : Text} {s' : Session}
    (hp : ph = .plain ∨ ph = .tls) (hl : '\n' ∉ l)
    (hi : ∀ stamp rest, interpret env cfg stamp (l ++ ['\r', '\n']) rest s
      = ⟨say s' replies, rest⟩) :
    Leads (Step env cfg) Move.handed ⟨ph, s, sent (l :: lines) ++ rest⟩ 1 []
      ⟨ph, s', sent lines ++ rest⟩ := by
  have hnoLf : '\n' ∉ l ++ ['\r'] := by
    rw [List.mem_append, not_or]
    exact ⟨hl, by decide⟩
  have hline : ∀ stamp, interpret env cfg stamp (l ++ ['\r'] ++ ['\n']) (sent lines ++ rest) s
      = ⟨say s' replies, sent lines ++ rest⟩ := by
    intro stamp
    rw [List.append_assoc]
    exact hi stamp _
  rw [sent_cons]
  exact answers_leads hp hnoLf hline

/-- A visible text has no line feed. -/
theorem noLf_of_visible {v : Text} (hv : ∀ c ∈ v, isWhitespace c = false) : '\n' ∉ v :=
  fun h => absurd (hv _ h) (by decide)

/-- The line of an AUTH command has none either. -/
theorem noLf_auth (hw : Spelled w "AUTH") (hx : '\n' ∉ x) : '\n' ∉ w ++ ' ' :: x := by
  rw [List.mem_append, List.mem_cons, not_or, not_or]
  exact ⟨noLf_of_visible (hw.visible (by decide)), by decide, hx⟩

theorem getLast?_visible {v : Text} (hv : ∀ c ∈ v, isWhitespace c = false) :
    ∀ c ∈ v.getLast?, isWhitespace c = false :=
  fun c hc => hv c (List.mem_of_mem_getLast? hc)

/-- The PLAIN response has at least its two separators. -/
theorem response_ne_nil (u p : Bytes) : Base64.encode (plainResponse [] u p) ≠ [] := by
  intro h
  have hnil : plainResponse [] u p = [] := Base64.encode_injective (h.trans rfl)
  exact nomatch hnil

/-- **AUTH PLAIN with its response on one line.** -/
theorem inlinePlain_leads (hb : ∀ d, env.base64Decode (Base64.encode d) = some d)
    (hauth : cfg.authUsername ≠ none) (hph : ph = .plain ∨ ph = .tls)
    (hs : s.authState = .none) (hu : 0 ∉ u) (hp : 0 ∉ p)
    (hw : Spelled w "AUTH") (hm : Spelled m "PLAIN") (rest : Bytes) :
    Leads (Step env cfg) Move.handed ⟨ph, s, sent (inlinePlain w m u p) ++ rest⟩ 1 []
      ⟨ph, presented cfg u p s, rest⟩ := by
  have hmvisible := hm.visible (by decide)
  have hresponse := Base64.encode_visible (plainResponse [] u p)
  have hwords := (splitWhitespace_mechanism hm (by decide) (by decide)).2 _ hresponse
    (response_ne_nil u p)
  have hupper := hm.toUppercase_eq (by decide)
  refine line_leads (verdict cfg u p) [] hph ?_ (fun stamp rest => ?_)
  · refine noLf_auth hw ?_
    rw [List.mem_append, List.mem_cons, not_or, not_or]
    exact ⟨noLf_of_visible hmvisible, by decide, noLf_of_visible hresponse⟩
  · have hlast : ∀ c ∈ (m ++ ' ' :: Base64.encode (plainResponse [] u p)).getLast?,
        isWhitespace c = false := by
      rw [List.getLast?_append_of_ne_nil _ (List.cons_ne_nil _ _),
        List.getLast?_cons_of_ne_nil (response_ne_nil u p)]
      exact getLast?_visible hresponse
    rw [interpret_auth hs hauth hw (by simp) hlast, hwords, authParts, dif_pos (by simp)]
    dsimp only [List.getElem_cons_succ, List.getElem_cons_zero]
    rw [if_pos hupper, dif_pos (by simp), verifyPlainAuth_response hb hu hp]

/-- An AUTH command without a response prompts for one. -/
theorem prompt_leads {mech : String} {s' : Session} {replies : List String}
    (lines : List Text) (hauth : cfg.authUsername ≠ none) (hph : ph = .plain ∨ ph = .tls)
    (hs : s.authState = .none) (hw : Spelled w "AUTH") (hm : Spelled m mech)
    (hmech : ∀ c ∈ mech.toList, c.isUpper = true) (hne : mech.toList ≠ [])
    (hprompt : authParts env cfg [w, m] s = say s' replies) (rest : Bytes) :
    Leads (Step env cfg) Move.handed ⟨ph, s, sent ((w ++ ' ' :: m) :: lines) ++ rest⟩ 1 []
      ⟨ph, s', sent lines ++ rest⟩ := by
  have hmvisible := hm.visible hmech
  have hmne : m ≠ [] := by
    rintro rfl
    exact hne hm.symm
  refine line_leads replies lines hph (noLf_auth hw (noLf_of_visible hmvisible))
    (fun stamp rest => ?_)
  rw [interpret_auth hs hauth hw hmne (getLast?_visible hmvisible),
    (splitWhitespace_mechanism hm hmech hne).1, hprompt]

/-- A base64 line, where the session waits for one. -/
theorem base64_leads (s' : Session) (replies : List String) (d : Bytes) (lines : List Text)
    (hph : ph = .plain ∨ ph = .tls)
    (hi : ∀ stamp rest, interpret env cfg stamp (Base64.encode d ++ ['\r', '\n']) rest s
      = ⟨say s' replies, rest⟩) (rest : Bytes) :
    Leads (Step env cfg) Move.handed ⟨ph, s, sent (Base64.encode d :: lines) ++ rest⟩ 1 []
      ⟨ph, s', sent lines ++ rest⟩ :=
  line_leads replies lines hph (noLf_of_visible (Base64.encode_visible d)) hi

/-- **AUTH PLAIN with its response on the next line.** -/
theorem promptedPlain_leads (hb : ∀ d, env.base64Decode (Base64.encode d) = some d)
    (hauth : cfg.authUsername ≠ none) (hph : ph = .plain ∨ ph = .tls)
    (hs : s.authState = .none) (hu : 0 ∉ u) (hp : 0 ∉ p)
    (hw : Spelled w "AUTH") (hm : Spelled m "PLAIN") (rest : Bytes) :
    Leads (Step env cfg) Move.handed ⟨ph, s, sent (promptedPlain w m u p) ++ rest⟩ 2 []
      ⟨ph, presented cfg u p s, rest⟩ := by
  have hupper := hm.toUppercase_eq (by decide)
  have hprompt : authParts env cfg [w, m] s
      = say { s with authState := .waitingForPlain } ["334 "] := by
    rw [authParts, dif_pos (by simp)]
    dsimp only [List.getElem_cons_succ, List.getElem_cons_zero]
    rw [if_pos hupper, dif_neg (by simp)]
  have hfirst := prompt_leads [Base64.encode (plainResponse [] u p)] hauth hph hs hw
    hm (by decide) (by decide) hprompt rest
  refine hfirst.trans (base64_leads _ (verdict cfg u p) _ [] hph (fun stamp rest => ?_) rest)
  have htrim : trim (Base64.encode (plainResponse [] u p) ++ ['\r', '\n'])
      = Base64.encode (plainResponse [] u p) := by
    rw [trim_append_whitespace _ _ (by decide), trim_base64]
  rw [interpret, htrim]
  dsimp only
  rw [authPlain, verifyPlainAuth_response hb hu hp]
  -- the session was idle before the prompt
  have hback : { presented cfg u p { s with authState := .waitingForPlain } with
      authState := .none } = presented cfg u p s := by
    rw [presented, presented, ← hs]
    split_ifs <;> rfl
  rw [← hback]
  rfl

/-- **AUTH LOGIN.** -/
theorem login_leads (hb : ∀ d, env.base64Decode (Base64.encode d) = some d)
    (hauth : cfg.authUsername ≠ none) (hph : ph = .plain ∨ ph = .tls)
    (hs : s.authState = .none) (hw : Spelled w "AUTH") (hm : Spelled m "LOGIN")
    (rest : Bytes) :
    Leads (Step env cfg) Move.handed ⟨ph, s, sent (login w m u p) ++ rest⟩ 3 []
      ⟨ph, presented cfg u p s, rest⟩ := by
  have hupper := hm.toUppercase_eq (by decide)
  have hprompt : authParts env cfg [w, m] s
      = say { s with authState := .waitingForLoginUsername } ["334 VXNlcm5hbWU6"] := by
    rw [authParts, dif_pos (by simp)]
    dsimp only [List.getElem_cons_succ, List.getElem_cons_zero]
    rw [if_neg (by rw [hupper]; decide), if_pos hupper]
  have htrim : ∀ d, trim (Base64.encode d ++ ['\r', '\n']) = Base64.encode d := by
    intro d
    rw [trim_append_whitespace _ _ (by decide), trim_base64]
  have hfirst := prompt_leads [Base64.encode u, Base64.encode p] hauth hph hs hw
    hm (by decide) (by decide) hprompt rest
  refine hfirst.trans (Leads.trans
    (base64_leads { s with authState := .waitingForLoginPassword (fromUtf8Lossy u) }
      ["334 UGFzc3dvcmQ6"] u [Base64.encode p] hph (fun stamp rest => ?_) rest)
    (base64_leads _ (verdict cfg u p) p [] hph (fun stamp rest => ?_) rest))
  · rw [interpret, htrim]
    dsimp only
    rw [authLoginUsername, hb]
  · rw [interpret, htrim]
    dsimp only
    rw [authLoginPassword, hb, presented, verdict]
    simp only [eq_comm (b := cfg.authUsername), eq_comm (b := cfg.authPassword)]
    split_ifs
    · rw [← hs]
    · rw [← hs]

/-- **All AUTH exchanges decide alike.**  From a session without an exchange under
    way, the three exchanges with one pair of NUL-free byte strings, in any letter
    case, lead to one and the same session, which is idle again and has its
    envelope unchanged. -/
theorem auth_paths_agree (hb : ∀ d, env.base64Decode (Base64.encode d) = some d)
    (hauth : cfg.authUsername ≠ none) (hph : ph = .plain ∨ ph = .tls)
    (hs : s.authState = .none) (hu : 0 ∉ u) (hp : 0 ∉ p) (rest : Bytes) :
    ∃ s', s'.authState = .none ∧ s'.envelope = s.envelope
      ∧ (∀ w m, Spelled w "AUTH" → Spelled m "PLAIN" →
        Leads (Step env cfg) Move.handed ⟨ph, s, sent (inlinePlain w m u p) ++ rest⟩ 1 []
          ⟨ph, s', rest⟩)
      ∧ (∀ w m, Spelled w "AUTH" → Spelled m "PLAIN" →
        Leads (Step env cfg) Move.handed ⟨ph, s, sent (promptedPlain w m u p) ++ rest⟩ 2 []
          ⟨ph, s', rest⟩)
      ∧ ∀ w m, Spelled w "AUTH" → Spelled m "LOGIN" →
        Leads (Step env cfg) Move.handed ⟨ph, s, sent (login w m u p) ++ rest⟩ 3 []
          ⟨ph, s', rest⟩ := by
  refine ⟨presented cfg u p s, ?_, presented_envelope cfg u p s, ?_, ?_, ?_⟩
  · rw [presented_authState, hs]
  · intro w m hw hm
    exact inlinePlain_leads hb hauth hph hs hu hp hw hm rest
  · intro w m hw hm
    exact promptedPlain_leads hb hauth hph hs hu hp hw hm rest
  · intro w m hw hm
    exact login_leads hb hauth hph hs hw hm rest

end

theorem auth_paths_agree_account : ∃ s' : Session, s'.authState = .none
    ∧ Leads (Step base64Env accountConfig) Move.handed
      ⟨.plain, Session.new true false,
        sent (inlinePlain "Auth".toList "plain".toList [117] [112]) ++ []⟩ 1 [] ⟨.plain, s', []⟩
    ∧ Leads (Step base64Env accountConfig) Move.handed
      ⟨.plain, Session.new true false,
        sent (login "AUTH".toList "LogIn".toList [117] [112]) ++ []⟩ 3 [] ⟨.plain, s', []⟩ := by
  have hb : ∀ d, base64Env.base64Decode (Base64.encode d) = some d := Base64.decode_encode
  have hauth : accountConfig.authUsername ≠ none := Option.some_ne_none _
  have hplain : Phase.plain = .plain ∨ Phase.plain = .tls := Or.inl rfl
  obtain ⟨s', hidle, -, hinline, -, hlogin⟩ := auth_paths_agree (s := Session.new true false)
    (u := [117]) (p := [112]) hb hauth hplain rfl (by decide) (by decide) []
  exact ⟨s', hidle, hinline _ _ (by decide +kernel) (by decide +kernel),
    hlogin _ _ (by decide +kernel) (by decide +kernel)⟩

end SmtpCredentials

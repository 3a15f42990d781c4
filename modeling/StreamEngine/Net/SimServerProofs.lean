import StreamEngine.Net.SimServer
import StreamEngine.Net.XmlProofs

/-! What the simulated host makes of the client's five requests, and what the client
reads in its replies. Neither depends on the primitives. -/
namespace StreamEngine.Net
open ByteString

variable (crypto : Crypto) (server : SimServer) (https : Bool) {v rest : Bytes}

/-! ### Queries -/

/-- The value of a parameter that is followed by another one. -/
theorem param_next {start name : Bytes} {found : Nat}
    (here : find start (name ++ ascii "=") 0 = some found)
    (last : found + name.length + 1 = start.length) (free : 38 ∉ v) :
    param (start ++ v ++ ascii "&" ++ rest) name = v := by
  have amp : ascii "&" = [38] := rfl
  have stop : find (start ++ v ++ ascii "&" ++ rest) [38] start.length =
      some (start.length + v.length) := by
    rw [amp]
    exact find_end rfl free
  have value : substr (start ++ v ++ ascii "&" ++ rest) start.length
      (start.length + v.length - start.length) = v := by
    rw [Nat.add_sub_cancel_left, substr, List.append_assoc, List.append_assoc, List.drop_left,
      List.take_left]
  have shape : start ++ v ++ ascii "&" ++ rest = start ++ (v ++ ascii "&" ++ rest) := by
    simp only [List.append_assoc]
  have inside : find (start ++ v ++ ascii "&" ++ rest) (name ++ ascii "=") 0 = some found := by
    rw [shape]
    exact find_append here
  simp only [param, inside, last, stop, value]

/-- The value of the last parameter. -/
theorem param_last {start name : Bytes} {found : Nat}
    (here : find start (name ++ ascii "=") 0 = some found)
    (last : found + name.length + 1 = start.length) (free : 38 ∉ v) :
    param (start ++ v) name = v := by
  have none : find (start ++ v) [38] start.length = none :=
    find_byte_none (by rwa [List.drop_left])
  simp only [param, find_append here, last, none, List.drop_left]

theorem contains_append {start needle : Bytes} (here : contains start needle = true) :
    contains (start ++ rest) needle = true := by
  obtain ⟨i, found⟩ := Option.isSome_iff_exists.mp here
  rw [contains, find_append found, Option.isSome_some]

/-- A needle that no hexadecimal digit completes. -/
def EndsOutsideHex (needle : Bytes) : Prop :=
  ∃ c, needle.getLast? = some c ∧ isDigit c = false ∧ ¬ (97 ≤ c ∧ c ≤ 102)

theorem phrase_endsOutsideHex : EndsOutsideHex (ascii "phrase=getservercert") :=
  ⟨116, by decide, by decide, by decide⟩

theorem clientchallenge_endsOutsideHex : EndsOutsideHex (ascii "clientchallenge=") :=
  ⟨61, by decide, by decide, by decide⟩

theorem serverchallengeresp_endsOutsideHex : EndsOutsideHex (ascii "serverchallengeresp=") :=
  ⟨61, by decide, by decide, by decide⟩

theorem not_contains_toHex {start needle : Bytes} (ends : EndsOutsideHex needle)
    (absent : find start needle 0 = none) (bytes : Bytes) :
    contains (start ++ toHex bytes) needle = false := by
  obtain ⟨c, last, digit, letter⟩ := ends
  rw [contains, find_append_none last ((toHex_isHexText bytes).free digit letter) absent,
    Option.isSome_none]

/-! ### Requests -/

theorem pair_ne_unpair : ascii "pair" ≠ ascii "unpair" := by decide

theorem respond_getservercert (salt cert : Bytes) :
    server.respond crypto https (ascii "pair") (kPairPrefix ++ ascii "phrase=getservercert&salt=" ++
      toHex salt ++ ascii "&clientcert=" ++ toHex cert) =
    (root200 (ascii "<paired>1</paired><plaincert>" ++
      (if server.offerCert then toHex server.id.certPem else []) ++ ascii "</plaincert>"),
      { server with aesKey := crypto.deriveAesKey salt server.pin server.gen7 }) := by
  have separator : ascii "&clientcert=" = ascii "&" ++ ascii "clientcert=" := by decide
  have here : find (kPairPrefix ++ ascii "phrase=getservercert&salt=") (ascii "salt" ++ ascii "=") 0 =
      some 51 := by decide
  have value : param (kPairPrefix ++ ascii "phrase=getservercert&salt=" ++ toHex salt ++
      ascii "&" ++ (ascii "clientcert=" ++ toHex cert)) (ascii "salt") = toHex salt :=
    param_next here (by decide) ((toHex_isHexText salt).free (by decide) (by decide))
  have stage : contains (kPairPrefix ++ ascii "phrase=getservercert&salt=" ++ (toHex salt ++
      (ascii "&" ++ (ascii "clientcert=" ++ toHex cert)))) (ascii "phrase=getservercert") = true :=
    contains_append (by decide)
  rw [separator]
  simp only [List.append_assoc] at value stage ⊢
  simp only [SimServer.respond, if_neg pair_ne_unpair, ne_eq, not_true_eq_false, if_false, if_pos stage,
    value, fromHex_toHex, List.append_assoc]

/-- A request whose one value is the hexadecimal text of `sent`. -/
def valueQuery (name sent : Bytes) : Bytes := kPairPrefix ++ (name ++ ascii "=") ++ toHex sent

theorem contains_valueQuery {name needle : Bytes}
    (here : contains (kPairPrefix ++ (name ++ ascii "=")) needle = true) (sent : Bytes) :
    contains (valueQuery name sent) needle = true := contains_append here

theorem not_contains_valueQuery {name needle : Bytes} (ends : EndsOutsideHex needle)
    (absent : find (kPairPrefix ++ (name ++ ascii "=")) needle 0 = none) (sent : Bytes) :
    contains (valueQuery name sent) needle = false := not_contains_toHex ends absent sent

theorem param_valueQuery (name : Bytes)
    (here : find (kPairPrefix ++ (name ++ ascii "=")) (name ++ ascii "=") 0 =
      some kPairPrefix.length) (sent : Bytes) :
    fromHex (param (valueQuery name sent) name) = sent := by
  have one : (ascii "=").length = 1 := rfl
  rw [valueQuery, param_last here ?_ ((toHex_isHexText sent).free (by decide) (by decide)),
    fromHex_toHex]
  simp only [List.length_append, one]
  omega

theorem respond_clientchallenge (sent : Bytes) :
    server.respond crypto https (ascii "pair") (valueQuery (ascii "clientchallenge") sent) =
      (root200 (ascii "<paired>1</paired><challengeresponse>" ++
        toHex (crypto.aesEcbEncrypt (padBlocks (crypto.genHash
          (crypto.aesEcbDecrypt sent server.aesKey ++
            crypto.signatureFromPemCert server.id.certPem ++ server.secret.val) server.gen7 ++
          server.challenge.val)) server.aesKey) ++ ascii "</challengeresponse>"),
        { server with serverSecret := server.secret.val }) := by
  have first : contains (valueQuery (ascii "clientchallenge") sent) (ascii "phrase=getservercert") =
      false := not_contains_valueQuery phrase_endsOutsideHex (by decide) sent
  have second : contains (valueQuery (ascii "clientchallenge") sent) (ascii "clientchallenge=") =
      true := contains_valueQuery (by decide) sent
  have value := param_valueQuery (ascii "clientchallenge") (by decide) sent
  simp only [SimServer.respond, if_neg pair_ne_unpair, ne_eq, not_true_eq_false, if_false, first,
    Bool.false_eq_true, if_pos second, value]

theorem respond_serverchallengeresp (sent : Bytes) :
    server.respond crypto https (ascii "pair") (valueQuery (ascii "serverchallengeresp") sent) =
      (root200 (ascii "<paired>1</paired><pairingsecret>" ++ toHex (server.serverSecret ++
        crypto.signMessage server.serverSecret server.id.keyPem) ++ ascii "</pairingsecret>"),
        server) := by
  have first : contains (valueQuery (ascii "serverchallengeresp") sent)
      (ascii "phrase=getservercert") = false :=
    not_contains_valueQuery phrase_endsOutsideHex (by decide) sent
  have second : contains (valueQuery (ascii "serverchallengeresp") sent)
      (ascii "clientchallenge=") = false :=
    not_contains_valueQuery clientchallenge_endsOutsideHex (by decide) sent
  have third : contains (valueQuery (ascii "serverchallengeresp") sent)
      (ascii "serverchallengeresp=") = true := contains_valueQuery (by decide) sent
  simp only [SimServer.respond, if_neg pair_ne_unpair, ne_eq, not_true_eq_false, if_false, first,
    second, Bool.false_eq_true, if_pos third]

theorem respond_clientpairingsecret (sent : Bytes) :
    server.respond crypto https (ascii "pair") (valueQuery (ascii "clientpairingsecret") sent) =
      (root200 (ascii "<paired>1</paired>"), server) := by
  have first : contains (valueQuery (ascii "clientpairingsecret") sent)
      (ascii "phrase=getservercert") = false :=
    not_contains_valueQuery phrase_endsOutsideHex (by decide) sent
  have second : contains (valueQuery (ascii "clientpairingsecret") sent)
      (ascii "clientchallenge=") = false :=
    not_contains_valueQuery clientchallenge_endsOutsideHex (by decide) sent
  have third : contains (valueQuery (ascii "clientpairingsecret") sent)
      (ascii "serverchallengeresp=") = false :=
    not_contains_valueQuery serverchallengeresp_endsOutsideHex (by decide) sent
  have fourth : contains (valueQuery (ascii "clientpairingsecret") sent)
      (ascii "clientpairingsecret=") = true := contains_valueQuery (by decide) sent
  simp only [SimServer.respond, if_neg pair_ne_unpair, ne_eq, not_true_eq_false, if_false, first,
    second, third, fourth, Bool.false_eq_true, Bool.true_or, if_true]

theorem respond_pairchallenge :
    server.respond crypto https (ascii "pair") (kPairPrefix ++ ascii "phrase=pairchallenge") =
      (root200 (ascii "<paired>1</paired>"), server) := by
  have first : contains (kPairPrefix ++ ascii "phrase=pairchallenge")
      (ascii "phrase=getservercert") = false := by decide
  have second : contains (kPairPrefix ++ ascii "phrase=pairchallenge") (ascii "clientchallenge=") =
      false := by decide
  have third : contains (kPairPrefix ++ ascii "phrase=pairchallenge")
      (ascii "serverchallengeresp=") = false := by decide
  have fifth : contains (kPairPrefix ++ ascii "phrase=pairchallenge")
      (ascii "phrase=pairchallenge") = true := by decide
  simp only [SimServer.respond, if_neg pair_ne_unpair, ne_eq, not_true_eq_false, if_false, first,
    second, third, fifth, Bool.false_eq_true, Bool.or_true, if_true]

/-! ### Replies -/

/-- The part of a reply before its elements. -/
def xmlHead : Bytes := ascii "<?xml version=\"1.0\"?><root status_code=\"200\">"

theorem pairedOk_root200 (more : Bytes) :
    pairedOk (root200 (ascii "<paired>1</paired>" ++ more)) = true := by
  have shape : root200 (ascii "<paired>1</paired>" ++ more) =
      xmlHead ++ ascii "<paired>1</paired>" ++ (more ++ ascii "</root>") := by
    simp only [root200, xmlHead, List.append_assoc]
  have status : xmlAttr (xmlHead ++ ascii "<paired>1</paired>") (ascii "root") (ascii "status_code") =
      ascii "200" := by decide
  have text : xmlText (xmlHead ++ ascii "<paired>1</paired>") (ascii "paired") = ascii "1" := by
    decide
  have nonempty : ∀ tail : Bytes, xmlHead ++ ascii "<paired>1</paired>" ++ tail ≠ [] := by
    intro tail empty
    have head : xmlHead = [] := (List.append_eq_nil_iff.mp (List.append_eq_nil_iff.mp empty).1).1
    exact absurd head (by decide)
  rw [shape, pairedOk, xmlAttr_append (status ▸ by decide), xmlText_append (text ▸ by decide), status,
    text, bne_iff_ne.mpr (nonempty _)]
  rfl

theorem pairedOk_opening {opening : Bytes} (element : ascii "<paired>1</paired>" <+: opening)
    (more : Bytes) : pairedOk (root200 (opening ++ more)) = true := by
  obtain ⟨tail, rfl⟩ := element
  rw [List.append_assoc]
  exact pairedOk_root200 _

/-- The element at the end of a reply is read back. -/
theorem xmlTextHex_root200 {opening closing tag : Bytes} (opened : OpensAtEnd (xmlHead ++ opening) tag)
    (closes : closing = 60 :: 47 :: tag ++ [62]) (bytes : Bytes) :
    xmlTextHex (root200 (opening ++ toHex bytes ++ closing)) tag = bytes := by
  have shape : root200 (opening ++ toHex bytes ++ closing) =
      xmlHead ++ opening ++ toHex bytes ++ (60 :: 47 :: tag) ++ ([62] ++ ascii "</root>") := by
    simp only [root200, xmlHead, closes, List.append_assoc]
  rw [shape]
  exact xmlTextHex_toHex opened bytes

theorem xmlTextHex_plaincert (cert : Bytes) :
    xmlTextHex (root200 (ascii "<paired>1</paired><plaincert>" ++ toHex cert ++
      ascii "</plaincert>")) (ascii "plaincert") = cert :=
  xmlTextHex_root200 ⟨63, 73, by decide⟩ (by decide) cert

theorem xmlTextHex_challengeresponse (blob : Bytes) :
    xmlTextHex (root200 (ascii "<paired>1</paired><challengeresponse>" ++ toHex blob ++
      ascii "</challengeresponse>")) (ascii "challengeresponse") = blob :=
  xmlTextHex_root200 ⟨63, 81, by decide⟩ (by decide) blob

theorem xmlTextHex_pairingsecret (secret : Bytes) :
    xmlTextHex (root200 (ascii "<paired>1</paired><pairingsecret>" ++ toHex secret ++
      ascii "</pairingsecret>")) (ascii "pairingsecret") = secret :=
  xmlTextHex_root200 ⟨63, 77, by decide⟩ (by decide) secret

end StreamEngine.Net

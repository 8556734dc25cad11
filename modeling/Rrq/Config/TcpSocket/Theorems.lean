import Rrq.Config.TcpSocket

-- Which sockets are accepted, and that the two parsers agree.

namespace Rrq.TcpSocket

open Utf8

-- How a socket is written: the host in brackets, or the host up to the last colon.
def Written (raw host portStr : List Char) : Prop :=
  raw = '[' :: (host ++ [']', ':'] ++ portStr) ∨
    ¬ ['['] <+: raw ∧ host ≠ [] ∧ raw = host ++ ':' :: portStr

section Split

theorem splitOnce_eq_some {pattern text before rest : List Char}
    (h : splitOnce pattern text = some (before, rest)) : text = before ++ pattern ++ rest := by
  induction text generalizing before with
  | nil => cases h
  | cons c text ih =>
      rw [splitOnce] at h
      split at h
      · rename_i found hstrip
        obtain ⟨⟨tail, htail⟩, hrest⟩ := Option.ite_none_right_eq_some.mp hstrip
        cases h
        rw [← Option.some.inj hrest, ← htail, List.drop_left]
        rfl
      · obtain ⟨⟨head, last⟩, hparts, heq⟩ := Option.map_eq_some_iff.mp h
        cases heq
        rw [ih hparts]
        rfl

theorem rsplitOnce_eq_some {sep : Char} {text before rest : List Char}
    (h : rsplitOnce sep text = some (before, rest)) : text = before ++ sep :: rest := by
  induction text generalizing before with
  | nil => cases h
  | cons c text ih =>
      rw [rsplitOnce] at h
      split at h
      · rename_i parts hparts
        cases h
        rw [ih hparts]
        rfl
      · obtain ⟨rfl, hparts⟩ := Option.ite_none_right_eq_some.mp h
        cases hparts
        rfl

theorem written_of_splitSpec {raw host portStr : List Char}
    (h : splitSpec raw = .ok (host, portStr)) : Written raw host portStr := by
  unfold splitSpec at h
  split at h
  · rename_i rest hstrip
    split at h
    · rename_i parts hparts
      obtain rfl := Except.ok.inj h
      obtain ⟨⟨tail, rfl⟩, hrest⟩ := Option.ite_none_right_eq_some.mp hstrip
      obtain rfl := Option.some.inj hrest
      left
      rw [List.drop_left] at hparts
      rw [splitOnce_eq_some hparts]
      rfl
    · cases h
  · rename_i hstrip
    have hbracket : ¬ ['['] <+: raw := by
      intro hpre
      rw [stripPrefix, if_pos hpre] at hstrip
      cases hstrip
    split at h
    · cases h
    · rename_i hparts
      split_ifs at h with hempty
      obtain ⟨rfl, rfl⟩ := Prod.mk.injEq .. ▸ Except.ok.inj h
      exact .inr ⟨hbracket, hempty, rsplitOnce_eq_some hparts⟩

theorem splitSpec_agrees {raw : List Char} {parts : List Char × List Char} :
    Runtime.splitSpec raw = .ok parts ↔ splitSpec raw = .ok parts := by
  unfold Runtime.splitSpec splitSpec
  cases stripPrefix ['['] raw with
  | some rest =>
      dsimp only
      cases splitOnce [']', ':'] rest <;> simp
  | none =>
      cases rsplitOnce ':' raw with
      | none => simp
      | some found => by_cases hempty : found.1 = [] <;> simp [hempty]

end Split

section Port

variable {portStr : List Char} {port : Nat}

theorem parsePort_ok : parsePort portStr = .ok port ↔ parseU16 portStr = some port ∧ port ≠ 0 := by
  unfold parsePort
  cases parseU16 portStr with
  | none => simp
  | some found =>
      by_cases hzero : found = 0
      · subst hzero
        simp
        omega
      · simp only [hzero, if_false, Except.ok.injEq, Option.some.injEq]
        constructor
        · rintro rfl
          exact ⟨rfl, hzero⟩
        · exact And.left

theorem parsePort_agrees : Runtime.parsePort portStr = .ok port ↔ parsePort portStr = .ok port := by
  unfold Runtime.parsePort parsePort
  cases parseU16 portStr with
  | none => simp
  | some found => by_cases hzero : found = 0 <;> simp [hzero]

theorem parseU16_le (h : parseU16 portStr = some port) : port ≤ 65535 := by
  obtain ⟨n, -, hn⟩ := Option.bind_eq_some_iff.mp h
  obtain ⟨hle, hport⟩ := Option.ite_none_right_eq_some.mp hn
  have hport := Option.some.inj hport
  omega

theorem isDigit_of_mem_decimal {n : Nat} {c : Char} (h : c ∈ decimal n) : c.isDigit := by
  rw [decimal, Nat.toList_repr] at h
  exact Nat.isDigit_of_mem_toDigits (by omega) (by omega) h

theorem decimal_ne_nil (n : Nat) : decimal n ≠ [] := by
  rw [decimal, Nat.toList_repr]
  exact Nat.toDigits_ne_nil

theorem parseU16_decimal (h : port ≤ 65535) : parseU16 (decimal port) = some port := by
  have hsigned : unsigned (decimal port) = decimal port := by
    unfold unsigned
    split
    · rename_i digits heq
      have hplus := isDigit_of_mem_decimal (n := port) (heq ▸ List.mem_cons_self)
      exact absurd hplus (by decide)
    · rfl
  rw [parseU16, hsigned, decimal, digitsValue_repr, Option.bind_some, if_pos (by omega)]
  rfl

end Port

section Host

variable {net : Net} {host : List Char} {port : Nat} {ip : IpAddr} {isAllowedHost : Bool}

theorem parseHost_ok (h : parseHost net host port isAllowedHost = .ok ip) :
    ip.isLoopback = true ∧ (host = "localhost".toList ∨ net.parseIp host = some ip) ∨
      isAllowedHost = true := by
  unfold parseHost at h
  split at h
  · rename_i hlocal
    obtain rfl := Except.ok.inj h
    exact .inl ⟨by decide, .inl hlocal⟩
  · split at h
    · rename_i parsed hparsed
      split at h
      · cases h
      · rename_i hallowed
        obtain rfl := Except.ok.inj h
        cases hloopback : parsed.isLoopback with
        | true => exact .inl ⟨rfl, .inr hparsed⟩
        | false => exact .inr (by simpa [hloopback] using hallowed)
    · split at h
      · cases h
      · rename_i hallowed
        exact .inr (by simpa using hallowed)

theorem parseHost_agrees (port : Nat) :
    Runtime.parseHost net host = .ok ip ↔ parseHost net host port false = .ok ip := by
  unfold Runtime.parseHost parseHost
  by_cases hlocal : host = "localhost".toList
  · rw [if_pos hlocal, if_pos hlocal]
  · rw [if_neg hlocal, if_neg hlocal]
    cases net.parseIp host with
    | none => simp
    | some parsed => cases hloopback : parsed.isLoopback <;> simp [hloopback]

theorem parseHost_of_parseIp (hip : net.parseIp host = some ip) (hloopback : ip.isLoopback = true)
    (hne : host ≠ "localhost".toList) : parseHost net host port isAllowedHost = .ok ip := by
  unfold parseHost
  rw [if_neg hne, hip]
  simp [hloopback]

end Host

section Parse

variable {net : Net} {raw : List Char}

theorem bind_eq_ok {ε α β : Type} {x : Except ε α} {f : α → Except ε β} {b : β} :
    x >>= f = .ok b ↔ ∃ a, x = .ok a ∧ f a = .ok b := by
  cases x with
  | error error => simp [bind, Except.bind]
  | ok a => simp [bind, Except.bind]

theorem parse_ok {allowedHosts : List (List Char)} {spec : TcpSocketSpec} :
    parseTcpSocketWithAllowedHosts net raw allowedHosts = .ok spec ↔
      trim Producer.isWhitespace raw ≠ [] ∧
      ∃ host portStr, splitSpec (trim Producer.isWhitespace raw) = .ok (host, portStr) ∧
        parsePort portStr = .ok spec.port ∧
        parseHost net host spec.port
          (allowedHosts.any fun allowed => eqIgnoreAsciiCase allowed host) = .ok spec.host := by
  unfold parseTcpSocketWithAllowedHosts
  by_cases hempty : trim Producer.isWhitespace raw = []
  · simp [hempty]
  simp only [hempty, if_false, ne_eq, not_false_eq_true, true_and, bind_eq_ok]
  constructor
  · rintro ⟨⟨host, portStr⟩, hsplit, port, hport, ip, hhost, hspec⟩
    obtain rfl := Except.ok.inj hspec
    exact ⟨host, portStr, hsplit, hport, hhost⟩
  · rintro ⟨host, portStr, hsplit, hport, hhost⟩
    exact ⟨(host, portStr), hsplit, spec.port, hport, spec.host, hhost, rfl⟩

theorem runtime_parse_ok {addr : SocketAddr} :
    Runtime.parseTcpSocket net raw = .ok addr ↔
      trim Producer.isWhitespace raw ≠ [] ∧
      ∃ host portStr, Runtime.splitSpec (trim Producer.isWhitespace raw) = .ok (host, portStr) ∧
        Runtime.parsePort portStr = .ok addr.port ∧
        Runtime.parseHost net host = .ok addr.ip := by
  unfold Runtime.parseTcpSocket
  by_cases hempty : trim Producer.isWhitespace raw = []
  · simp [hempty]
  simp only [hempty, if_false, ne_eq, not_false_eq_true, true_and, bind_eq_ok]
  constructor
  · rintro ⟨⟨host, portStr⟩, hsplit, port, hport, ip, hhost, haddr⟩
    obtain rfl := Except.ok.inj haddr
    exact ⟨host, portStr, hsplit, hport, hhost⟩
  · rintro ⟨host, portStr, hsplit, hport, hhost⟩
    exact ⟨(host, portStr), hsplit, addr.port, hport, addr.ip, hhost, rfl⟩

theorem parse_agrees {addr : SocketAddr} :
    Runtime.parseTcpSocket net raw = .ok addr ↔
      ∃ spec, parseTcpSocketWithAllowedHosts net raw [] = .ok spec ∧
        spec.addr spec.port = addr := by
  have hfields : Runtime.parseTcpSocket net raw = .ok addr ↔
      parseTcpSocketWithAllowedHosts net raw [] = .ok ⟨addr.ip, addr.port⟩ := by
    rw [runtime_parse_ok, parse_ok]
    simp only [splitSpec_agrees, parsePort_agrees, parseHost_agrees addr.port, List.any_nil]
  rw [hfields]
  constructor
  · exact fun h => ⟨_, h, rfl⟩
  · rintro ⟨spec, hspec, rfl⟩
    exact hspec

end Parse

-- What a parsed socket is allowed to be: its port is the one that is written, and its host is on
-- this machine, or its name was asked for.
structure Acceptable (net : Net) (raw : List Char) (allowedHosts : List (List Char))
    (spec : TcpSocketSpec) : Prop where
  port_pos : 0 < spec.port
  port_le : spec.port ≤ 65535
  written : ∃ host portStr, Written (trim Producer.isWhitespace raw) host portStr ∧
    parseU16 portStr = some spec.port ∧ (spec.host.isLoopback = true ∧
        (host = "localhost".toList ∨ net.parseIp host = some spec.host) ∨
      ∃ allowed ∈ allowedHosts, eqIgnoreAsciiCase allowed host = true)

theorem acceptable_of_parse {net : Net} {raw : List Char} {allowedHosts : List (List Char)}
    {spec : TcpSocketSpec}
    (h : parseTcpSocketWithAllowedHosts net raw allowedHosts = .ok spec) :
    Acceptable net raw allowedHosts spec := by
  obtain ⟨-, host, portStr, hsplit, hport, hhost⟩ := parse_ok.mp h
  obtain ⟨hnumber, hpos⟩ := parsePort_ok.mp hport
  refine ⟨Nat.pos_of_ne_zero hpos, parseU16_le hnumber, host, portStr,
    written_of_splitSpec hsplit, hnumber, ?_⟩
  rcases parseHost_ok hhost with hlocal | hallowed
  · exact .inl hlocal
  · exact .inr (List.any_eq_true.mp hallowed)

-- What is assumed of the standard library: the one loopback address of its kind is printed so,
-- and read back.
structure Net.KnowsLoopback (net : Net) : Prop where
  print : net.printV6 1 = "::1".toList
  parse : net.parseV6 "::1".toList = some 1

section Display

variable {net : Net}

theorem parseOctet_decimal (n : UInt8) : parseOctet (decimal n.toNat) = some n := by
  have hall : ∀ n : Fin 256, parseOctet (decimal n.val) = some (UInt8.ofNat n.val) := by
    decide +kernel
  have hn := hall ⟨n.toNat, n.toNat_lt⟩
  rwa [UInt8.ofNat_toNat] at hn

theorem dot_notMem_decimal (n : Nat) : '.' ∉ decimal n := fun h =>
  absurd (isDigit_of_mem_decimal h) (by decide)

theorem parseV4_dotted (a b c d : UInt8) : parseV4 (dotted a b c d) = some (.V4 a b c d) := by
  have hsplit : (dotted a b c d).splitOn '.' =
      [decimal a.toNat, decimal b.toNat, decimal c.toNat, decimal d.toNat] := by
    unfold dotted
    rw [List.splitOn_append_cons_self, List.splitOn_append_cons_self,
      List.splitOn_append_cons_self]
    simp only [List.splitOn_eq_singleton (dot_notMem_decimal _), List.singleton_append]
  unfold parseV4
  rw [hsplit]
  simp only [List.mapM_cons, List.mapM_nil, parseOctet_decimal, Option.bind_eq_bind,
    Option.bind_some, Option.pure_def]

theorem colon_notMem_decimal (n : Nat) : ':' ∉ decimal n := fun h =>
  absurd (isDigit_of_mem_decimal h) (by decide)

theorem isWhitespace_of_isDigit {c : Char} (h : c.isDigit) : Producer.isWhitespace c = false := by
  have hrange : 48 ≤ c.toNat ∧ c.toNat ≤ 57 := by
    simpa [Char.isDigit, UInt32.le_iff_toNat_le] using h
  simp only [Producer.isWhitespace, Bool.or_eq_false_iff, Bool.and_eq_false_iff,
    decide_eq_false_iff_not, beq_eq_false_iff_ne]
  omega

theorem getLast_append_decimal (text : List Char) (n : Nat) :
    ∀ c ∈ (text ++ decimal n).getLast?, c.isDigit := by
  intro c hc
  have hne : text ++ decimal n ≠ [] := by simp [decimal_ne_nil]
  obtain ⟨-, rfl⟩ := List.mem_getLast?_eq_getLast hc
  rw [List.getLast_append_of_ne_nil _ (decimal_ne_nil n)]
  exact isDigit_of_mem_decimal (List.getLast_mem _)

theorem trim_append_decimal {text : List Char} {n : Nat}
    (h : ∀ c ∈ text.head?, Producer.isWhitespace c = false) (hne : text ≠ []) :
    trim Producer.isWhitespace (text ++ decimal n) = text ++ decimal n := by
  apply trim_of_ends
  · rw [List.head?_append_of_ne_nil _ hne]
    exact h
  · exact fun c hc => isWhitespace_of_isDigit (getLast_append_decimal text n c hc)

theorem isDigit_of_head_dotted {a b c d : UInt8} {x : Char} (h : x ∈ (dotted a b c d).head?) :
    x.isDigit := by
  rw [dotted, List.head?_append_of_ne_nil _ (decimal_ne_nil _)] at h
  exact isDigit_of_mem_decimal (List.mem_of_mem_head? h)

theorem dotted_ne_nil (a b c d : UInt8) : dotted a b c d ≠ [] := by
  simp [dotted]

-- A socket that is printed is taken apart again as it was put together.

theorem splitSpec_v4 (net : Net) (a b c d : UInt8) (port : Nat) :
    trim Producer.isWhitespace (net.display ⟨.V4 a b c d, port⟩) =
        net.display ⟨.V4 a b c d, port⟩ ∧
      splitSpec (net.display ⟨.V4 a b c d, port⟩) = .ok (dotted a b c d, decimal port) := by
  have hdisplay : net.display ⟨.V4 a b c d, port⟩ =
      dotted a b c d ++ [':'] ++ decimal port := by simp [Net.display]
  constructor
  · rw [hdisplay]
    apply trim_append_decimal
    · rw [List.head?_append_of_ne_nil _ (dotted_ne_nil a b c d)]
      exact fun x hx => isWhitespace_of_isDigit (isDigit_of_head_dotted hx)
    · simp
  · have hstrip : stripPrefix ['['] (dotted a b c d ++ ':' :: decimal port) = none := by
      rw [stripPrefix, if_neg]
      rintro ⟨tail, htail⟩
      have hhead := congrArg List.head? htail
      rw [List.head?_append_of_ne_nil _ (dotted_ne_nil a b c d)] at hhead
      exact absurd (isDigit_of_head_dotted hhead.symm) (by decide)
    have hraw : net.display ⟨.V4 a b c d, port⟩ = dotted a b c d ++ ':' :: decimal port := rfl
    unfold splitSpec
    rw [hraw, hstrip]
    dsimp only
    rw [rsplitOnce_append (colon_notMem_decimal port)]
    exact if_neg (dotted_ne_nil a b c d)

theorem splitSpec_v6 {net : Net} (hnet : net.KnowsLoopback) (port : Nat) :
    trim Producer.isWhitespace (net.display ⟨.V6 1, port⟩) = net.display ⟨.V6 1, port⟩ ∧
      splitSpec (net.display ⟨.V6 1, port⟩) = .ok ("::1".toList, decimal port) := by
  have hdisplay : net.display ⟨.V6 1, port⟩ =
      ['['] ++ ("::1".toList ++ [']', ':'] ++ decimal port) := by
    rw [Net.display, hnet.print]
    rfl
  constructor
  · have happend : net.display ⟨.V6 1, port⟩ =
        (['['] ++ "::1".toList ++ [']', ':']) ++ decimal port := by
      rw [hdisplay]
      simp only [List.append_assoc]
    rw [happend]
    apply trim_append_decimal
    · rintro c ⟨⟩
      decide
    · simp
  · have hparts : splitOnce [']', ':'] ("::1".toList ++ [']', ':'] ++ decimal port) =
        some ("::1".toList, decimal port) := splitOnce_append (by decide)
    unfold splitSpec
    rw [hdisplay, stripPrefix_append]
    dsimp only
    rw [hparts]

theorem parseIp_v4 (net : Net) (a b c d : UInt8) :
    net.parseIp (dotted a b c d) = some (.V4 a b c d) := by
  rw [Net.parseIp, parseV4_dotted]
  rfl

theorem parseIp_v6 {net : Net} (hnet : net.KnowsLoopback) :
    net.parseIp "::1".toList = some (.V6 1) := by
  have hv4 : parseV4 "::1".toList = none := by decide
  rw [Net.parseIp, hv4, hnet.parse]
  rfl

theorem dotted_ne_localhost (a b c d : UInt8) : dotted a b c d ≠ "localhost".toList := by
  intro h
  have hhead : 'l' ∈ (dotted a b c d).head? := by
    rw [h]
    decide
  exact absurd (isDigit_of_head_dotted hhead) (by decide)

theorem splitSpec_display (hnet : net.KnowsLoopback) {addr : SocketAddr}
    (hloopback : addr.ip.isLoopback = true) :
    trim Producer.isWhitespace (net.display addr) = net.display addr ∧
      ∃ host, splitSpec (net.display addr) = .ok (host, decimal addr.port) ∧
        net.parseIp host = some addr.ip ∧ host ≠ "localhost".toList := by
  obtain ⟨ip, port⟩ := addr
  cases ip with
  | V4 a b c d =>
      obtain ⟨htrim, hsplit⟩ := splitSpec_v4 net a b c d port
      exact ⟨htrim, _, hsplit, parseIp_v4 net a b c d, dotted_ne_localhost a b c d⟩
  | V6 bits =>
      obtain rfl : bits = 1 := by simpa [IpAddr.isLoopback] using hloopback
      obtain ⟨htrim, hsplit⟩ := splitSpec_v6 hnet port
      exact ⟨htrim, _, hsplit, parseIp_v6 hnet, by decide⟩

theorem parse_display (hnet : net.KnowsLoopback) {addr : SocketAddr}
    (hloopback : addr.ip.isLoopback = true) (hpos : 0 < addr.port) (hle : addr.port ≤ 65535)
    (allowedHosts : List (List Char)) :
    parseTcpSocketWithAllowedHosts net (net.display addr) allowedHosts =
      .ok ⟨addr.ip, addr.port⟩ := by
  obtain ⟨htrim, host, hsplit, hip, hne⟩ := splitSpec_display hnet hloopback
  rw [parse_ok, htrim]
  refine ⟨?_, host, decimal addr.port, hsplit, ?_, parseHost_of_parseIp hip hloopback hne⟩
  · intro hempty
    rw [hempty] at hsplit
    cases hsplit
  · exact parsePort_ok.mpr ⟨parseU16_decimal hle, hpos.ne'⟩

end Display

-- Only sockets of this machine, or of a host that was asked for, are accepted. The runner accepts
-- what the settings do without such hosts, and both read back what is printed.
theorem tcpSocket_consistent {net : Net} (hnet : net.KnowsLoopback) :
    (∀ (raw : List Char) (allowedHosts : List (List Char)) (spec : TcpSocketSpec),
      parseTcpSocketWithAllowedHosts net raw allowedHosts = .ok spec →
        Acceptable net raw allowedHosts spec) ∧
    (∀ (raw : List Char) (addr : SocketAddr), Runtime.parseTcpSocket net raw = .ok addr ↔
      ∃ spec, parseTcpSocketWithAllowedHosts net raw [] = .ok spec ∧
        spec.addr spec.port = addr) ∧
    ∀ addr : SocketAddr, addr.ip.isLoopback = true → 0 < addr.port → addr.port ≤ 65535 →
      (∀ allowedHosts, parseTcpSocketWithAllowedHosts net (net.display addr) allowedHosts =
        .ok ⟨addr.ip, addr.port⟩) ∧
      Runtime.parseTcpSocket net (net.display addr) = .ok addr := by
  refine ⟨fun raw allowedHosts spec => acceptable_of_parse, fun raw addr => parse_agrees, ?_⟩
  intro addr hloopback hpos hle
  refine ⟨parse_display hnet hloopback hpos hle, parse_agrees.mpr ?_⟩
  exact ⟨_, parse_display hnet hloopback hpos hle [], rfl⟩

-- A library that knows the one address, and no host names.
def sampleNet : Net where
  printV6 bits := if bits = 1 then "::1".toList else []
  parseV6 text := if text = "::1".toList then some 1 else none
  toSocketAddrs _ _ := none

theorem tcpSocket_consistent_sample :
    Runtime.parseTcpSocket sampleNet "[::1]:9000".toList = .ok ⟨.V6 1, 9000⟩ := by
  have hnet : sampleNet.KnowsLoopback := ⟨by decide, by decide⟩
  have hdisplay : sampleNet.display ⟨.V6 1, 9000⟩ = "[::1]:9000".toList := by decide
  rw [← hdisplay]
  exact ((tcpSocket_consistent hnet).2.2 ⟨.V6 1, 9000⟩ (by decide) (by decide) (by decide)).2

end Rrq.TcpSocket

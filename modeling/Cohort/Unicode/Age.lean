import Cohort.Unicode.Runs

/-!
# Age of Unicode characters

The version of Unicode that a character first appeared in, up to 16.0, by runs from code point 0
up: each run is its length, left out when it is 1, and the letter of its version, or a point for
code points without a character.
-/

namespace Cohort.Unicode.Age

structure Version where
  number : String
  name : String
  letter : Char
  deriving DecidableEq, Repr

/-- The versions, the oldest first. -/
def versions : List Version :=
  [⟨"1.1", "V1_1", 'A'⟩, ⟨"2.0", "V2_0", 'B'⟩, ⟨"2.1", "V2_1", 'C'⟩, ⟨"3.0", "V3_0", 'D'⟩,
   ⟨"3.1", "V3_1", 'E'⟩, ⟨"3.2", "V3_2", 'F'⟩, ⟨"4.0", "V4_0", 'G'⟩, ⟨"4.1", "V4_1", 'H'⟩,
   ⟨"5.0", "V5_0", 'I'⟩, ⟨"5.1", "V5_1", 'J'⟩, ⟨"5.2", "V5_2", 'K'⟩, ⟨"6.0", "V6_0", 'L'⟩,
   ⟨"6.1", "V6_1", 'M'⟩, ⟨"6.2", "V6_2", 'N'⟩, ⟨"6.3", "V6_3", 'O'⟩, ⟨"7.0", "V7_0", 'P'⟩,
   ⟨"8.0", "V8_0", 'Q'⟩, ⟨"9.0", "V9_0", 'R'⟩, ⟨"10.0", "V10_0", 'S'⟩, ⟨"11.0", "V11_0", 'T'⟩,
   ⟨"12.0", "V12_0", 'U'⟩, ⟨"12.1", "V12_1", 'V'⟩, ⟨"13.0", "V13_0", 'W'⟩, ⟨"14.0", "V14_0", 'X'⟩,
   ⟨"15.0", "V15_0", 'Y'⟩, ⟨"15.1", "V15_1", 'Z'⟩, ⟨"16.0", "V16_0", 'a'⟩]

/-- The runs of the table, in order. -/
def runText : List String :=
  ["502A4D30A8DFG18D3G11H14I89A5D2G47AD10A5D17G70A9DF8G5H3G2AD13F4J2A2J2.A3IAP4.7A.A.20A.44AJ7AD",
   "2FADADADAD18A2EF5G4HD12AD66AD12AD41AJ2D2F4D53A2F2A2F2A2FI28A2D8A2H2A6I16F4I16J2K2L8P.38A2.7A",
   "T39ATAD2.2PM.17BH13B10AI9AB3H8.27A4.T5A11.4GMP5JHA9G5JAOXHAL26A5J19A3D3G6HL14A2F72A2D5AD15AD",
   "30A2G10A5DG14D.30D3G27D2.3G30H18J49DF14.59I2.3T46K2.15K.28L2.L.11S5.31X.2X5.a8XMP11M6P2QX8R",
   "10W11XT15RQ27MPK3AG53A2L18AKL5AK2L25A2J5LP2K2IH2IP3A.8A2.2A2.22A.7A.A3.4A2.AG7A2.2A2.3AH8.A",
   "4.2A.5A2.21AK2ST2.GAG.6A4.2A2.22A.7A.2A.2A.2A2.A.5A4.2A2.3A3.J7.4A.A7.15AJT10.3A.7AGA.3A.22A",
   ".7A.2A.5A2.10A.3A.3A2.A15.A3G2.10AMG7.Q6S.3A.8A2.2A2.22A.7A.2A.G4A2.8AJ2.2A2.3A7.W2A4.2A.3A",
   "2J2.11AG6L10.2A.6A3.3A.4A3.2A.A.2A3.2A3.3A3.8AH3A4.5A3.3A.4A2.J6.A14.H12A8G5.P3AT8A.3A.23A.",
   "10AP5A2.XJ7A.3A.4A7.2A.2JQ2.X2.2A2J2.10A7.U8JRP2AT8A.3A.23A.10A.5A2.2G7A.3A.4A7.2A6.XA.2A2I",
   "2.10A.2IY12.SP2AW8A.3A.23AL16AL2SJ6AJ.3A.4ALR4.3RA7RQ2A2J2.10A6J3R7J.W2D.18D3.24D.9D.D2.7D3.",
   "D4.6D.D.8D6.10P2.3D12.58A4.29A37.2A.A.U2AUA.UA6U4AU7AU3A.A.A2U2AU13AU3A2.5A.A.6AY.10A2.2A2M",
   "32.72B.33BD2J4.27B4L6BDB.21B3D7BDB3D.15D.JD2H3J4K2L37.34DJ5DJ2DJ7D3J4D6J26D64J4K2J38A.M5.M2.",
   "39A2F2HAH3M90A5K68A5K82A6K7DH63DHD.4D2.7D.D.4D2.39DHD.4D2.31DHD.4D2.7D.D.4D2.7DH7D.23DH31DHD",
   ".4D2.7DH39DH19D2.2L2H28D3.26H6.85DQ2.6Q2.K630D9K29D3.81D8P7.13FX7FX9.X23F9.20F12.13F.3F.2F",
   "12.93DG2.10D6.10G6.15DX10D6.88DT7.42DJ5.70K10.29G2P.12G4.12G4.G3.42G2.5G11.42H2K4.26H6.10HK",
   "3.2H32G28H2.2H63K.29K2.11K6.10K6.14K2.15P2W14X49.76IX.2a45I2Xa43J3M12J6M52L8.4L56J3.15J3.51J",
   "9R2a5.43T2.3T8M8.35K4MS2PU5.108G88H7I28J15P4SXRLK2I155AB4J90A6J22A2.6A2.38A2.6A2.8A.A.A.A.",
   "31A2.53A.15A.14A2.6A.19A2.3A.9A.47AD23AF6D5F2G2HF7H5FJ.4O7AF2.27A.5H8L3.11ABC3D2F4H3KLN3PQSX",
   "15.18A2D7FH4IJ15.57A2DGH15FH2IJ3K48ADI4JK2Q4.91A9D12F242A14FAD121ADF30D52F2G11H12IK11L7P4RS",
   "37A2D3a22.11A21.139A20FG150A10F80A8D8F20A2G2FHD86A2D12F2H10F8G11HJ2K2G16HI10J3K4J10KL19KLK4L",
   "24KP4AL4A2L28AL35ALAL4A3LAK7A2L7A14F31A3L24AL14AL7H4IMJM2L28F4J16F256D512F14G6H7I5J4I41J3P5J",
   "5K26P2.32P.W34P3T12PU8PS25T4Q15TU47HX47HX13I3JK3J4I6J2K107H7K2M5.45H.M5.M2.54H2M7.HL14.L23H",
   "9.7H.7H.7H.7H.7H.7H.7H.7H.32J24H4J2H19JK10M7P2R5S5TU3W11X34.26D.89D12.214D26.12D4Z56A3D3FDA.",
   "84A2F2.6A2F94AF5.40AJST.94A.16A24D3L5W16H20J2a9.Z16F29A2G.36A12KG15F28A2GH50A15F12A4G47AV",
   "119A4G99A2G31AG6582D10W64G20902A22H8J8KM9Q21S5T13W3X1165D3.18D2F16DF12DF3DFD9.48K300J20.32J",
   "2L18J8M28J6PQM88K8.23H4I5J2I107J2LQ2L2M12P10LM3PRT2P6Q2T6U2X5U4W3a2.2X.X.5X3a21.3X2WP2ML5J",
   "44HW3.10K6.56I8.69JR8.12J6.28K2Q2T84J11.J29K3.78K.11K4.2K31P.55J9.14J2.10J2.4J28K4P67K24.5K",
   "23M10.6L2.6L2.6L9.7L.7L.48P4Q2P2U4W4.80Q46K2.10K6.11172B12.23K4.49K2052.6702A2M59F3K2.106H",
   "38.7A12.5A5.D25A.5A.A.2A.2A.108A16LX16.365A16X64A2.54A7.X32E12AFG2X16F10H6.4A3J7P2Q21A2F2G",
   "10A.19A.4A4.3AFA.135A2.A.94A2F94A3.6A2.6A2.6A2.3A3.7A.7A10.3DC3A12G.26G.19G.2G.15G2.14G34.",
   "123G5.3G4.45G3.9G75H2P2R.12JW3.P47.46J130.29J3.49J15.28P4.31EP4E9.3S27E5.43P5.30G.G36H4.14H",
   "42.38E2G38E80G2.10G6.36R4.36R4.40P8.52P11.P11X.15X.7X.2X.11X.15X.7X.2X3.52a12.311P9.22P10.8P",
   "24.6X.42X.9X69.6G2.G.44G.2G3.G2.G22K.9K63P8.9P48.19Q.2Q5.5Q26I2K3.I26J5.J64.56M4.2Q2M16Q2.",
   "46Q4H.2H5.8H.3H.27H2T2.3H4.9HT7.9H7.32K32P32.39P4.12P9.54K3.29K2.27K5.8K18P7.4P12.7P80.73K",
   "55.51Q13.51Q7.6Q40T8.10T6.38a3.29a8.2a208.31K.42W.3W2.2W16.3a55.a3Y40T8.42T22.26X38.28W20.",
   "23U9.78L4.30L6X9.P66KX10.T2.25M7.10M6.53M.14M3TW8.39P9.73M4QP2W10MP5Q.20P11.18P.43PR3Y62.7Q.",
   "Q.4Q.15Q.11Q6.59P5.10P6.Q3P.8P2.2P2.22P.7P.2P.5P.T9P2.2P2.3P2.Q6.P5.7P2.7P3.5P11.10a.a2.a.",
   "38a.10a.a2.a.4a.10a.2a8.2a29.90RWR.RTU2W30.72P8.10P166.54P2.18P20Q34.69P11.10P6.13R19.56MUX",
   "6.10M6.20a28.26QT2.15Q4.16Q7X185.60T100.83P12.P7W2.W2.8W.2W.30W.2W2.12W9.10W70.8U2.46U2.11U",
   "27.72S8.52S2U23ST5S13.16X57P7.10Y182.34a14.10a6.9R.45R.14R10.29R3.32R2.22R.14R73.7S.2S.44S3.",
   "S.2S.9S8.10S6.6T.2T.37T.2T.6T7.10T310.25T7.17Y.41Y3.28Ya85.W15.50U13.U879I42PQ102.99I12P.4IP",
   "11.196Q2636.99X13.1071KY9U29Y10.3995a5.583Q6841.58a1734.569L7.31P.10P4.2P79X.10X6.30P2.6P10.",
   "70P10.10P.7P.21P5.19P432.58a198.91T101.69M6U4.U47M9U7.17M64.RS2UW11.2W14.6125R5T6U8.755R483W",
   "41.a9W8935.4X.7X.2X.2L285S4X15.Y29.3U2.Y14.4U8.396S2308.107P5.13P3.9P7.10P2.8P3932.250a6.",
   "436a76.46X2.23X9.116X60.246E10.39E2.J180E11Q2X21.70H122.20Y12.20T12.87G9.18I7T135.85E.71E.2E",
   "2.E2.2E2.4E.12E.E.4EG2E.65E.4E2.8E.7E.28E.4E.5E.E3.7E.338E2H2.290E2I2.50E652Q15.5Q.15Q1104.",
   "31X6.6Y213.7R.17R2.7R.2R.5R5.62Y33.Y112.45U3.14U2.10U4.2U320.31X17.58U5.U464.42Y214.43a4.a",
   "480.7X.4X.2X.15X.197P2.16P41.75RU4.10R4.2R785.68T76.61U194.4M.27M.2M.M2.M.10M.4M.M.M6.M4.M.M",
   ".M.3M.2M.M2.M.M.M.M.M.2M.M2.4M.7M.4M.4M.M.10M.17M5.3M.5M.17M52.2M270.44J4.100J12.15L2.14LP.",
   "15L.15L22P10.11K2P3W31KTLK11LKLK2LK3LK3L5K8LK7LK10L2MU3W9LKL2K2LK10L4K2LK10L18RW56.26LK2L13.",
   "34K9LR4.9K7.2L14.6S154.33L12P3Q6LP70LP2Q20L12P37LP5L4P5Q12P17L7P8Q63LPLP182LP4L2PQ62L2P4M7P",
   "5Q24L18PR41PR86P5LM16LM3LMLMLMLM3LM6L2M4LML2M4LM12L2P2Q11L48P70L10PQ2R2SU2W4.Y3X13P3.4P3R2ST",
   "U2W3.116L3Y4.5Y85P4TY6.12U4.X15.12P4.56P8.10P6.40P8.30P2.2W10a4.2a62.12SW3U9Q6RS8R8SR2S12RU",
   "12RS3T15R13S5TUW4T2WXTU4T5Q13R6S11T2W6U3W2U10T6UQ2T8UWX3U23S25T84U12.14T2.4UW3Y3U2X3.3U4W2Ya",
   "5.a6U19W4X3Y7W4X3YaY3W3Xa7.2Y7W3X2Ya2.a8XYa6.7X2Y7.147W.55W37a10W1028.2B42711E7W2X32.4149K4X",
   "Y6.222L2.5762Q14.7473S15.622Z2466.542E1504.2B4939W5.4192Y56398.2B65534.2B65534.2B65534.2B",
   "65534.2B65534.2B65534.2B65534.2B65534.2B65534.2B65534.2B.E30.96E128.240G65038.131074B"]

def table : Runs Char := .ofText 0 (fun s => s.toList.head?) runText

/-- The characters of a version and all before it. -/
def upTo (v : Version) : CharSet :=
  let older := versions.takeWhile (· != v)
  table.set fun letter => letter == v.letter || older.any (·.letter == letter)

end Cohort.Unicode.Age

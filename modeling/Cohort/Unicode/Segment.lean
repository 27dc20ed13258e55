import Cohort.Unicode.Property

/-!
# Classes of characters at the boundaries of text

The values of the properties that tell where a grapheme cluster, a word or a sentence ends
(Unicode 16), each with the characters that have it. Characters without any of these values are not
listed.
-/

namespace Cohort.Unicode

namespace ClusterBreak

def carriageReturn : Property :=
  .ofText ["CR"] []
    ["13nyn"]

def control : Property :=
  .ofText ["CN", "Control"] [.lineSeparator, .paragraphSeparator, .control, .format]
    ["10ny2ny1522n6y215ny49ny384n2y80ny5929n2y87ny57226n9y4292ny15ny847666nyn254y240n3600yn"]

def extend : Property :=
  .ofText ["EX", "Extend"] [.nonspacingMark, .enclosingMark]
    ["2494ny24ny358ny24ny102ny24ny232nyny4n2yn2y9n2y103ny24ny119ny15ny2357ny30ny1024ny5nyny5n2y",
     "101ny71n2y1048ny4129n2y31011ny108ny21981n2y4640ny116ny264ny14ny9ny96ny9ny2nyn3y5ny224ny12n",
     "y241ny262ny633ny12ny1539ny20654n2y24947n2y6n6y8840n5y789536n96yn"]

def hangulLeading : Property :=
  .ofText ["L"] []
    ["4352n96y38912n29yn"]

def lineFeed : Property :=
  .ofText ["LF"] []
    ["10nyn"]

def hangulPair : Property :=
  .ofText ["LV"] []
    ["44032ny27ny27ny27ny27ny27ny27ny27ny27ny27ny27ny27ny27ny27ny27ny27ny27ny27ny27ny27ny27ny27n",
     "y27ny27ny27ny27ny27ny27ny27ny27ny27ny27ny27ny27ny27ny27ny27ny27ny27ny27ny27ny27ny27ny27ny",
     "27ny27ny27ny27ny27ny27ny27ny27ny27ny27ny27ny27ny27ny27ny27ny27ny27ny27ny27ny27ny27ny27ny",
     "27ny27ny27ny27ny27ny27ny27ny27ny27ny27ny27ny27ny27ny27ny27ny27ny27ny27ny27ny27ny27ny27ny",
     "27ny27ny27ny27ny27ny27ny27ny27ny27ny27ny27ny27ny27ny27ny27ny27ny27ny27ny27ny27ny27ny27ny",
     "27ny27ny27ny27ny27ny27ny27ny27ny27ny27ny27ny27ny27ny27ny27ny27ny27ny27ny27ny27ny27ny27ny",
     "27ny27ny27ny27ny27ny27ny27ny27ny27ny27ny27ny27ny27ny27ny27ny27ny27ny27ny27ny27ny27ny27ny",
     "27ny27ny27ny27ny27ny27ny27ny27ny27ny27ny27ny27ny27ny27ny27ny27ny27ny27ny27ny27ny27ny27ny",
     "27ny27ny27ny27ny27ny27ny27ny27ny27ny27ny27ny27ny27ny27ny27ny27ny27ny27ny27ny27ny27ny27ny",
     "27ny27ny27ny27ny27ny27ny27ny27ny27ny27ny27ny27ny27ny27ny27ny27ny27ny27ny27ny27ny27ny27ny",
     "27ny27ny27ny27ny27ny27ny27ny27ny27ny27ny27ny27ny27ny27ny27ny27ny27ny27ny27ny27ny27ny27ny",
     "27ny27ny27ny27ny27ny27ny27ny27ny27ny27ny27ny27ny27ny27ny27ny27ny27ny27ny27ny27ny27ny27ny",
     "27ny27ny27ny27ny27ny27ny27ny27ny27ny27ny27ny27ny27ny27ny27ny27ny27ny27ny27ny27ny27ny27ny",
     "27ny27ny27ny27ny27ny27ny27ny27ny27ny27ny27ny27ny27ny27ny27ny27ny27ny27ny27ny27ny27ny27ny",
     "27ny27ny27ny27ny27ny27ny27ny27ny27ny27ny27ny27ny27ny27ny27ny27ny27ny27ny27ny27ny27ny27ny",
     "27ny27ny27ny27ny27ny27ny27ny27ny27ny27ny27ny27ny27ny27ny27ny27ny27ny27ny27ny27ny27ny27ny",
     "27ny27ny27ny27ny27ny27ny27ny27ny27ny27ny27ny27ny27ny27ny27ny27ny27ny27ny27ny27ny27ny27ny",
     "27ny27ny27ny27ny27ny27ny27ny27ny27ny27ny27ny27ny27ny27ny27ny27ny27ny27ny27ny27ny27ny27ny",
     "27ny27ny27nyn"]

def hangulTriple : Property :=
  .ofText ["LVT"] []
    ["44033n27yn27yn27yn27yn27yn27yn27yn27yn27yn27yn27yn27yn27yn27yn27yn27yn27yn27yn27yn27yn27yn",
     "27yn27yn27yn27yn27yn27yn27yn27yn27yn27yn27yn27yn27yn27yn27yn27yn27yn27yn27yn27yn27yn27yn",
     "27yn27yn27yn27yn27yn27yn27yn27yn27yn27yn27yn27yn27yn27yn27yn27yn27yn27yn27yn27yn27yn27yn",
     "27yn27yn27yn27yn27yn27yn27yn27yn27yn27yn27yn27yn27yn27yn27yn27yn27yn27yn27yn27yn27yn27yn",
     "27yn27yn27yn27yn27yn27yn27yn27yn27yn27yn27yn27yn27yn27yn27yn27yn27yn27yn27yn27yn27yn27yn",
     "27yn27yn27yn27yn27yn27yn27yn27yn27yn27yn27yn27yn27yn27yn27yn27yn27yn27yn27yn27yn27yn27yn",
     "27yn27yn27yn27yn27yn27yn27yn27yn27yn27yn27yn27yn27yn27yn27yn27yn27yn27yn27yn27yn27yn27yn",
     "27yn27yn27yn27yn27yn27yn27yn27yn27yn27yn27yn27yn27yn27yn27yn27yn27yn27yn27yn27yn27yn27yn",
     "27yn27yn27yn27yn27yn27yn27yn27yn27yn27yn27yn27yn27yn27yn27yn27yn27yn27yn27yn27yn27yn27yn",
     "27yn27yn27yn27yn27yn27yn27yn27yn27yn27yn27yn27yn27yn27yn27yn27yn27yn27yn27yn27yn27yn27yn",
     "27yn27yn27yn27yn27yn27yn27yn27yn27yn27yn27yn27yn27yn27yn27yn27yn27yn27yn27yn27yn27yn27yn",
     "27yn27yn27yn27yn27yn27yn27yn27yn27yn27yn27yn27yn27yn27yn27yn27yn27yn27yn27yn27yn27yn27yn",
     "27yn27yn27yn27yn27yn27yn27yn27yn27yn27yn27yn27yn27yn27yn27yn27yn27yn27yn27yn27yn27yn27yn",
     "27yn27yn27yn27yn27yn27yn27yn27yn27yn27yn27yn27yn27yn27yn27yn27yn27yn27yn27yn27yn27yn27yn",
     "27yn27yn27yn27yn27yn27yn27yn27yn27yn27yn27yn27yn27yn27yn27yn27yn27yn27yn27yn27yn27yn27yn",
     "27yn27yn27yn27yn27yn27yn27yn27yn27yn27yn27yn27yn27yn27yn27yn27yn27yn27yn27yn27yn27yn27yn",
     "27yn27yn27yn27yn27yn27yn27yn27yn27yn27yn27yn27yn27yn27yn27yn27yn27yn27yn27yn27yn27yn27yn",
     "27yn27yn27yn27yn27yn27yn27yn27yn27yn27yn27yn27yn27yn27yn27yn27yn27yn27yn27yn27yn27yn27yn",
     "27yn27yn27yn27yn"]

def prepend : Property :=
  .ofText ["PP", "Prepend"] []
    ["1536n6y215ny49ny384n2y80ny1131ny66414ny15ny244n2y525ny1389nyny248ny73n6y700ny443nyn"]

def regionalIndicator : Property :=
  .ofText ["RI", "Regional_Indicator"] []
    ["127462n26yn"]

def spacingMark : Property :=
  .ofText ["SM", "SpacingMark"] [.spacingMark]
    ["2494ny24ny358ny24ny102ny24ny232nyny4n2yn2y9n2y103ny24ny119ny15ny83ny127ny375n2y11ny41n3y2n",
     "7y21ny3n6y2ny10n3y1656ny30ny812nyn2y208ny5nyny5n2y101ny71n2y5178n2y31011ny108ny186nyny",
     "26434ny116ny264ny14ny9ny96ny9ny2nyn3y5ny224ny12ny241ny262ny105n2y526ny12ny1539ny20654n2y",
     "24947n2y6n6yn"]

def hangulTrailing : Property :=
  .ofText ["T"] []
    ["4520n88y50635n49yn"]

def hangulVowel : Property :=
  .ofText ["V"] []
    ["4448n72y50696n23y38300ny3n4yn"]

def joiner : Property :=
  .ofText ["ZWJ"] []
    ["8205nyn"]

/-- The classes at the boundaries of grapheme clusters. -/
def all : List Property :=
  [carriageReturn, control, extend, hangulLeading, lineFeed, hangulPair, hangulTriple, prepend,
   regionalIndicator, spacingMark, hangulTrailing, hangulVowel, joiner]

end ClusterBreak

namespace WordBreak

def aLetter : Property :=
  .ofText ["LE", "ALetter"]
    [.uppercaseLetter, .lowercaseLetter, .titlecaseLetter, .modifierLetter, .otherLetter,
     .letterNumber]
    ["706n4y12n6y6n2y5n7ynyn17y602n3yny43ny69n27y4n5y283ny1777n48yn2y12n7y58n2ynyn5yn24ynyn10yn",
     "2y9ny2n5yny21n4y288n43y20ny16n6y4n4y3ny3n2y7n3y4n13y12ny1777n52y35ny4ny371n30y2n5y11n44y4n",
     "26y86n53y82ny2574n52y2844n2y25n9y7n5y2n3y6n86y6n3yn90yn4y240n16y512n6592y64n20992y1800n15y",
     "9n2y103n2y597n5yn10y10n5y97n23y3ny3n50yny3n2y2n5y2nyny24n3y125ny19876n366y2n106y67nyn10yn",
     "13yn5ynyn2yn2yn10y1046n58y5984n27y37n7y22713n6136y8n1238y41n10y8935n4yn7yn2yn291y15ny29n3y",
     "2ny14n4y8n396y15924n26y6n26y6n26y3702n42720y32n4154y6n222y2n5762y14n7473y15n622y2466n542y",
     "1506n4939y5n4192yn"]

def carriageReturn : Property :=
  .ofText ["CR"] []
    ["13nyn"]

def doubleQuote : Property :=
  .ofText ["DQ", "Double_Quote"] []
    ["34nyn"]

def extend : Property :=
  .ofText ["Extend"] [.nonspacingMark, .spacingMark, .enclosingMark]
    ["8204ny57233n2y62555n5y789536n96yn"]

def extendNumLet : Property :=
  .ofText ["EX", "ExtendNumLet"] [.connectorPunctuation]
    ["8239nyn"]

def format : Property :=
  .ofText ["FO", "Format"] [.format]
    ["1536n6y215ny49ny384n2y80ny5928n3y61615ny15ny847698n96yn"]

def hebrewLetter : Property :=
  .ofText ["HL", "Hebrew_Letter"] []
    ["1488n27y4n4y62762nyn10yn13yn5ynyn2yn2yn10yn"]

def katakana : Property :=
  .ofText ["KA", "Katakana"] []
    ["12337n5y101n2y3n91yn4y240n16y208n47yn88y52238n56y45138n4yn7yn2yny287n3y50ny14n4yn"]

def lineFeed : Property :=
  .ofText ["LF"] []
    ["10nyn"]

def midLetter : Property :=
  .ofText ["ML", "MidLetter"] []
    ["58ny124ny719ny471ny148ny6706ny56811ny65ny196nyn"]

def midNum : Property :=
  .ofText ["MN", "MidNum"] []
    ["44ny14ny834ny522ny130n2y94ny395ny6219ny56843ny3ny183ny14nyn"]

def midNumLet : Property :=
  .ofText ["MB", "MidNumLet"] []
    ["46ny8169n2y10ny56877ny180ny6nyn"]

def newline : Property :=
  .ofText ["NL", "Newline"] [.lineSeparator, .paragraphSeparator]
    ["11n2y120nyn"]

def numeric : Property :=
  .ofText ["NU", "Numeric"] [.decimalNumber]
    ["1536n6y101ny113ny434n2y80ny4343ny63202ny15nyn"]

def regionalIndicator : Property :=
  .ofText ["RI", "Regional_Indicator"] []
    ["127462n26yn"]

def singleQuote : Property :=
  .ofText ["SQ", "Single_Quote"] []
    ["39nyn"]

def segmentSpace : Property :=
  .ofText ["WSegSpace"] [.spaceSeparator]
    ["160ny8038ny39nyn"]

def joiner : Property :=
  .ofText ["ZWJ"] []
    ["8205nyn"]

/-- The classes at the boundaries of words. -/
def all : List Property :=
  [aLetter, carriageReturn, doubleQuote, extend, extendNumLet, format, hebrewLetter, katakana,
   lineFeed, midLetter, midNum, midNumLet, newline, numeric, regionalIndicator, singleQuote,
   segmentSpace, joiner]

end WordBreak

namespace SentenceBreak

def aTerm : Property :=
  .ofText ["AT", "ATerm"] []
    ["46ny8181ny56877ny187nyn"]

def carriageReturn : Property :=
  .ofText ["CR"] []
    ["13nyn"]

def close : Property :=
  .ofText ["CL", "Close"]
    [.openPunctuation, .closePunctuation, .initialPunctuation, .finalPunctuation]
    ["34ny4ny10035n6y1695n2y4n3y2ny116842n3yn"]

def extend : Property :=
  .ofText ["EX", "Extend"] [.nonspacingMark, .spacingMark, .enclosingMark]
    ["8204n2y57232n2y852096n96yn"]

def format : Property :=
  .ofText ["FO", "Format"] [.format]
    ["1536n6y215ny434n2y80ny5929n2y61615ny15ny847698n96yn"]

def lineFeed : Property :=
  .ofText ["LF"] []
    ["10nyn"]

def lower : Property :=
  .ofText ["LO", "Lower"] [.lowercaseLetter]
    ["170ny15ny501n9y7n2y30n5y149ny3413n43yn4y3116n63y13ny34n37y689ny13ny16n13y211n16y848n26y",
     "1938n2y31262n2y210ny129n3y3n2y866n4y9ny23574ny2n3yn42yn9y55413n62yn"]

def numeric : Property :=
  .ofText ["NU", "Numeric"] [.decimalNumber]
    ["1536n6y101n2y112ny434n2y80ny4343ny63202ny15nyn"]

def oLetter : Property :=
  .ofText ["LE", "OLetter"] [.modifierLetter, .otherLetter, .letterNumber]
    ["170ny15ny501n9y7n2y30n5y149ny632ny2780n43yn4y2960n43y2n3y108n63y13ny34n37y689ny13ny16n13y",
     "195n32y2812n2y31262n2y210ny129n3y3n2y866n4y9ny21556n2y2016ny2n3yn42yn9y55413n62yn"]

def sContinue : Property :=
  .ofText ["SC", "SContinue"] []
    ["44n2y12n2y834ny478ny174n2y490ny4105ny5ny2058n2y4076ny52750n2yn2y28n2y29n2y2n2y2ny10ny168n",
     "2y12n2y72nyn"]

def sTerm : Property :=
  .ofText ["ST", "STerm"] []
    ["33ny29ny1353ny147n3y180ny43n3y246ny61nyny3n2y293n2y1764n2y790ny4n2y773ny198n2y157n2y45ny5n",
     "y314n2y354n4y162n2y10n2y2n2y29n3y187n2y65n2y956n2y9n3y3247n3y306ny13ny22n2y429ny29948ny",
     "270n2y227ny3ny382n2y86n2y95ny152n2y147n3y144n2y249ny21030ny2n2y63n2y169ny29ny65ny2804n2y",
     "1277n5y44n4y189n2y117n4y127n3y129n2y6ny16n2y88n2yn2y108ny298n2y117n2y373n2y5n15y105n2y249n",
     "3y517nyny251n2y87n2y420n2y692n2y74n2y19241n2y133ny65n2y11ny553n2y296ny19974ny7656nyn"]

def sep : Property :=
  .ofText ["SE", "Sep"] [.lineSeparator, .paragraphSeparator]
    ["133nyn"]

def sp : Property :=
  .ofText ["Sp"] [.spaceSeparator]
    ["9nyn2yn"]

def upper : Property :=
  .ofText ["UP", "Upper"] [.uppercaseLetter, .titlecaseLetter]
    ["7312n43y2n3y1184n16y838n26y117856n26y6n26y6n26yn"]

/-- The classes at the boundaries of sentences. -/
def all : List Property :=
  [aTerm, carriageReturn, close, extend, format, lineFeed, lower, numeric, oLetter, sContinue,
   sTerm, sep, sp, upper]

end SentenceBreak

end Cohort.Unicode

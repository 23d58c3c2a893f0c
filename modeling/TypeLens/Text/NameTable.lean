/-!
The names of the characters that do not fit in one byte, apart from those that follow a rule, in a
form that leaves out what a name shares with the one before it.
-/

namespace TypeLens.Text

/-- Names by their initial, in order. A name is a number, in base 26 with `a` for zero, of the
characters that it takes over from the name before, and its other characters. Line ends say
nothing. -/
def nameTables : List (Char × String) := [
  ('A', "
aABACUSbC CURRENTcCORDIONeUNT OFcTIVATE ARABIC FORM SHAPINGjSYMMETRIC SWAPPINGcUTE ANGLEbDDRESSE
D TO THE SUBJECTcHESIVE BANDAGEcI SHAKTIcLAM ALIF LENGTHENERgCAPITAL LETTER ALIFvBAwHEvCHIvDAALIw
HAvEvFAvGAwBEvHAvIvJIIMvKAFwHAwPOvLAAMvMIIMvNHAwUNwYAvOvPEvQAAFvRAvSHAwINNYIIYHEvTUvUvVAvWAWvYAwH
EvZALhONSONANT MODIFIERgDIGIT EIGHTmFIVEnOURmNINEmONEmSEVENnIXmTHREEnWOmZEROgGEMINATE CONSONANT M
ODIFIERnION MARKgHAMZAgINITIAL EXCLAMATION MARKoQUESTION MARKgNASALIZATION MARKhUKTAgSMALL LETTE
R ALIFtBAuHEtCHItDAALIuHAtEtFAtGAuBEtHAtItJIIMtKAFuHAuPOtLAAMtMIIMtNHAuUNuYAtOtPEtQAAFtRAtSHAuINN
YIIYHEtTUtUtVAtWAWtYAuHEtZALgVOWEL LENGTHENERcMETOSdISSION TICKETScULTbEGEAN CHECK MARKhDRY MEASU
RE FIRST SUBUNIThLIQUID MEASURE FIRST SUBUNIThMEASURE SECOND SUBUNITpTHIRD SUBUNIThNUMBER EIGHT
t HUNDREDuTHOUSANDtYu THOUSANDoFIFTYt THOUSANDqVEs HUNDREDtTHOUSANDpORTYt THOUSANDqURs HUNDREDtTH
OUSANDoNINEs HUNDREDtTHOUSANDsTYu THOUSANDoONEr HUNDREDsTHOUSANDoSEVENt HUNDREDuTHOUSANDtTYv THOU
SANDpIXr HUNDREDsTHOUSANDrTYt THOUSANDoTENr THOUSANDpHIRTYu THOUSANDqREEt HUNDREDuTHOUSANDpWENTY
u THOUSANDqOr HUNDREDsTHOUSANDhWEIGHT BASE UNIToFIRST SUBUNITpOURTH SUBUNIToSECOND SUBUNIToTHIR
D SUBUNITiORD SEPARATOR DOTwLINEcRIAL TRAMWAYbFGHANI SIGNbHOM CONSONANT SIGN MEDIAL LAbcIGATING R
AbbRAfDIGIT EIGHTlFIVEmOURlNINElONElSEVENmIXlTHREEmWOlZEROfLETTER AnLTERNATE BAwGAwTAmBAnHAmCAnHA
mDAnDAoHAnHAmGAnHAmHAmJAnHAmKAnHAmLAnLAmMAmNAnGAnNAnYAmPAnHAmRAmSAmTAnHAnTAoHAfNUMBER TENnWENTYfS
IGN KILLERkRULAIkSECTIONlMALL SECTIONgYMBOL VIfVOWEL SIGN ArArIrMrWqEqIrIqOqUrUbIRPLANEi ARRIVING
jDEPARTUREbKTIESELSKABbLARM CLOCKcCHEMICAL SYMBOL FOR AIRxLEMBICyKALIbc-2yUMxMALGAMxNTIMONY ORExQ
UA REGIAbg-2bbVITAEbg-2baFORTISxRSENICxSHESxURIPIGMENTwBATH OF MARYbeVAPOURSxISMUTH ORExLACK SULF
URxORAXbb-2bc3xRICKwCADUCEUSyLXyPUT MORTUUMxINNABARxOPPER ANTIMONIATEbdORExROCUS OF COPPERbm-2bgI
RONyUCIBLEbe-2bf3bf4bf5wDAY-NIGHTxISSOLVEbe-2zTILLwEARTHwFIREwGOLDxUMwHALF DRAMbbOUNCExORSE DUNGy
URwIRON OREbe-2ba-COPPER OREwLEAD ORExODESTONEwMARCASITExERCURY SUBLIMATEbn-2bo3xONTHwNIGHTyTREwO
ILwPHILOSOPHERS SULFURxOT ASHESyWDERbcED BRICKxRECIPITATExURIFYyTREFACTIONwQUICK LIMEzNTESSENCEwR
EALGARbd-2yGULUSbd OF ANTIMONYbp-2bhIRONbd-2be3be4yTORTxOCK SALTbf-2wSAL-AMMONIACzTba OF ANTIMONY
beCOPPER ANTIMONIATExCEPTER OF JOVExILVERxOAPxPIRITxTARRED TRIDENTyRATUM SUPER STRATUMbr-2xUBLIMA
TE OF ANTIMONYbjCOPPERbjSALT OF ANTIMONYbrCOPPERbeIONyLFURwTARTARbc-2xIN OREzCTURExRIDENTxUTTYwUR
INEwVERDIGRISxINEGARbd OF ANTIMONYbd-2be3yTRIOLbd-2wWATERyXcEF SYMBOLdMBICcIEN MONSTERcL AROUND-P
ROFILEeEQUAL TOcMdOST EQUAL OR EQUAL TOnTOp WITH CIRCUMFLEX ACCENTcTERNATE ONE-WAY LEFT WAY TRAFF
ICiIVE KEY SYMBOLbMALGAMATION OR COPRODUCTcBULANCEcERICAN FOOTBALLcPHORAbNATOLIAN HIEROGLYPH A001
y2y3y4y5y6y7y8y9x10zAy1y2y3y4y5y6y7y8y9x20y1y2y3y4y5y6zAy7y8y9x30y1y2y3y4y5y6y7y8y9zAx40y1zAy2y3y
4y5zAy6zAzBy7y8y9x50y1y2y3y4y5y6y7y8y9x60y1y2y3y4y5y6zAzBzCy7y8y9x70y1y2y3y4y5y6y7y8y9x80y1y2y3y4
y5y6y7y8y9x90y1y2y3y4y5y6y7zAy8zAy9w100zAy1zAy2zAy3y4zAzBzCy5zAzBy6y7zAzBzCy8y9x10zAzBy1y2y3y4y5z
Ay6y7y8y9x20y1y2y3y4y5zAy6y7y8y9x30y1y2y3y4y5zAy6y7y8y9x40y1y2y3y4y5y6y7y8y9x50y1y2y3y4y5y6y7y8y9
x60y1y2y3y4y5y6y7y8y9x70y1y2y3y4y5y6y7y8y9x80y1y2y3y4y5y6y7y8y9x90y1y2y3y4y5y6y7y8y9w200y1y2zAzBy
3y4y5y6y7zAy8y9zAx10y1y2y3y4y5zAy6zAy7y8y9x20y1y2y3y4y5y6y7zAy8y9x30y1y2y3y4y5y6y7y8y9x40y1y2y3y4
y5y6y7y8y9x50y1y2y3y4y5y6y7y8y9x60y1y2y3y4y5y6y7zAy8y9x70y1y2y3y4y5y6y7y8y9x80y1y2y3y4y5y6y7y8y9z
Ax90y1y2y3y4zAy5y6y7y8y9zAw300y1y2y3y4y5y6y7y8y9zAx10y1y2y3y4y5y6y7y8y9x20y1y2y3y4y5y6y7y8y9zAx30
y1y2AzBzCy3y4y5y6zAzBzCy7y8y9x40y1y2y3y4y5y6y7y8y9x50y1y2y3y4y5y6y7y8y9zAx60y1y2y3y4zAy5y6y7y8zAy
9x70y1zAy2y3y4y5y6y7y8y9x80y1zAy2y3 RA OR RIzAy4y5y6zAy7y8y9x90y1y2y3 EIGHTy4y5y6y7y8y9w400y1y2y3
y4y5y6y7y8y9x10 BEGIN LOGOGRAM MARKzA END LOGOGRAM MARKy1y2y3y4y5y6y7y8y9x20y1y2y3y4y5y6y7y8y9x30
y1y2y3y4y5y6y7y8y9x40y1y2y3y4y5y6y7y8y9x50zAy1y2y3y4y5y6y7zAy8y9x60y1y2y3y4y5y6y7y8y9x70y1y2y3y4y
5y6y7y8y9x80y1y2y3y4y5y6y7y8y9x90y1y2y3y4y5y6y7w501y2y3y4y5y6y7y8y9x10y1y2y3y4y5y6y7y8y9x20y1y2y3
y4y5y6y7y8y9x30fMICAL HEARTcCHORcD WITH DOTcGER SYMBOLdLEf WITH S INSIDElUNDERBARdRY FACEdSTROM S
IGNdUISHED FACEcKHcTdENNA WITH BARSdICLOCKWISE CLOSED CIRCLE ARROWpONTOUR INTEGRALoDOWNWARDS AN
D UPWARDS OPEN CIRCLE ARROWSoGAPPED CIRCLE ARROWoINTEGRATIONoOPEN CIRCLE ARROWoTOP SEMICIRCLE ARR
OWpRIANGLE-HEADED BOTTOM U-SHAPED ARROWbeLEFT U-SHAPED ARROWbeOPEN CIRCLE ARROWbeRIGHT U-SHAPED A
RROWbeTOP U-SHAPED ARROWbPL FUNCTIONAL SYMBOL ALPHAbb UNDERBARwBACKSLASH BARwCIRCLE BACKSLASHbdDI
AERESISbdJOTbdSTARbfILEbdUNDERBARxOMMA BARwDEL DIAERESISbaSTILEbaTILDEzTA STILEbcUNDERBARxIAMON
D UNDERBARxOWN CARET TILDEbbSHOE STILEbbTACK JOTbgUNDERBARbaWARDS VANEwEPSILON UNDERBARwGREATER-T
HAN DIAERESISwI-BEAMxOTAba UNDERBARwJOT DIAERESISbaUNDERBARwLEFT SHOE STILEbaWARDS VANEwOMEGAbb U
NDERBARwQUADba BACKSLASHbbCIRCLEbcOLONbbDELbeTAbcIAMONDbdVIDEbcOWN CARETbfWARDS ARROWbbEQUALbbGRE
ATER-THANbbJOTbbLEFTWARDS ARROWbdSS-THANbbNOT EQUALbbQUESTIONbbRIGHTWARDS ARROWbbSLASHbbUP CARETb
dWARDS ARROWyOTE QUADbcUNDERBARwRHOxIGHTWARDS VANEwSEMICOLON UNDERBARxLASH BARxQUISH QUADxTAR DIA
ERESISyILE TILDEwTILDE DIAERESISwUP CARET TILDEzSHOE JOTzTACK DIAERESISbeJOTbeOVERBARyWARDS VANEw
ZILDEcOLLONcPROACHES THE LIMITfXIMATELY BUT NOT ACTUALLY EQUAL TOoEQUAL OR EQUAL TOuTOw OR THE IM
AGE OFbQUARIUSbRABIC BASELINE ROUND DOThCOMMAiURLY DAMMAsTANnFATHAsTANnKASRAsTANhDAMMAm ISOLATE
D FORMnMEDIAL FORMnWITH DOTmTANp ISOLATED FORMjTE SEPARATORiECIMAL SEPARATORiISPUTED END OF AYAHi
OUBLE RIGHT ARROWHEAD ABOVEbj WITH DOTnD MADDAhEMPTY CENTRE HIGH STOPuLOW STOPiND OF AYAHoTEXT MA
RKhFATHAm ISOLATED FORMnMEDIAL FORMnWITH DOT ABOVEsRINGsTWO DOTSmTANp ISOLATED FORMiIVE POINTED S
TARiOOTNOTE MARKERiULL STOPhHALF MADDA OVER MADDAjMZA ABOVEnBELOWhINVERTED DAMMAhKASRAm ISOLATE
D FORMnMEDIAL FORMnWITH DOT BELOWmTANp ISOLATED FORMhLARGE CIRCLE BELOWnROUND DOT ABOVExBELOWxINS
IDE CIRCLE BELOWiEFT ARROWHEAD ABOVEwBELOWjTTER AEpFRICAN FEHwNOONwQAFz WITH THREE DOTS ABOVEpIN
r FINAL FORMsINITIAL FORMtSOLATED FORMsMEDIAL FORMsWITH THREE DOTS ABOVEbiBELOWbiPOINTING DOWNWAR
DS ABOVEyWO DOTS ABOVEbgVERTICALLY ABOVEpLEFs FINAL FORMtISOLATED FORMtMAKSURAba FINAL FORMbbISOL
ATED FORMtWASLAy FINAL FORMzISOLATED FORMuITH ATTACHED BOTTOM RIGHT KASRAbz AND DOT ABOVEceLEFT R
INGbhFATHAbhKASRAbhLEFT HAMZAbmROUND DOTbhRIGHT HAMZAbnROUND DOTbiOUND DOT ABOVEbrBELOWbhTOP RIGH
T FATHAbw AND DOT ABOVEcbLEFT RINGyDOT ABOVEyEXTENDED ARABIC-INDIC DIGIT THREE ABOVEcbWO ABOVEyHA
MZA ABOVEbj FINAL FORMbkISOLATED FORMbeBELOWbj FINAL FORMbkISOLATED FORMyLEFT MIDDLE STROKEyMADD
A ABOVEbj FINAL FORMbkISOLATED FORMyRIGHT MIDDLE STROKEbr AND DOT ABOVEbwLEFT RINGyWAVY HAMZA ABO
VEbjBELOWoBEEHs FINAL FORMtINITIAL FORMuSOLATED FORMtMEDIAL FORMqHr FINAL FORMsINITIAL FORMtSOLAT
ED FORMsMEDIAL FORMsWITH DOT BELOW AND THREE DOTS ABOVExHAMZA ABOVExINVERTED SMALL V BELOWxSMAL
L MEEM ABOVEbdVbe BELOWxTHREE DOTS HORIZONTALLY BELOWbiPOINTING UPWARDS BELOWce AND TWO DOTS ABOV
EyWO DOTS BELOW AND DOT ABOVErEHt FINAL FORMuINITIAL FORMvSOLATED FORMuMEDIAL FORMoDADr FINAL FOR
MsINITIAL FORMtSOLATED FORMsMEDIAL FORMsWITH DOT BELOWqHALt FINAL FORMuISOLATED FORMqLr FINAL FOR
MsISOLATED FORMsWITH DOT BELOWbg AND SMALL TAHxFOUR DOTS ABOVExINVERTED SMALL V BELOWbgVxRINGxTHR
EE DOTS ABOVE DOWNWARDSbiBELOWyWO DOTS VERTICALLY BELOW AND SMALL TAHpDAHALu FINAL FORMvISOLATE
D FORMrLs FINAL FORMtISOLATED FORMpOTLESS BEHwFEHwQAFpULr FINAL FORMsISOLATED FORMpYEHs FINAL FOR
MtINITIAL FORMuSOLATED FORMtMEDIAL FORMoEp FINAL FORMqINITIAL FORMrSOLATED FORMqMEDIAL FORMoFARS
I YEHx FINAL FORMyINITIAL FORMzSOLATED FORMyMEDIAL FORMyWITH EXTENDED ARABIC-INDIC DIGIT FOUR BEL
OWcfTHREE ABOVEcgWO ABOVEbdINVERTED VbdTHREE DOTS ABOVEbeWO DOTS ABOVEpEHr FINAL FORMsINITIAL FOR
MtSOLATED FORMsMEDIAL FORMsWITH DOT BELOWbg AND THREE DOTS ABOVEbbMOVED BELOWxTHREE DOTS BELOWbiP
OINTING UPWARDS BELOWyWO DOTS BELOWoGAFr FINAL FORMsINITIAL FORMtSOLATED FORMsMEDIAL FORMsWITH IN
VERTED STROKExRINGxTHREE DOTS ABOVEyWO DOTS BELOWpHAINt FINAL FORMuINITIAL FORMvSOLATED FORMuMEDI
AL FORMuWITH DOT BELOWzTHREE DOTS ABOVEpRAFpUEHs FINAL FORMtINITIAL FORMuSOLATED FORMtMEDIAL FORM
oHAHr FINAL FORMsINITIAL FORMtSOLATED FORMsMEDIAL FORMsWITH EXTENDED ARABIC-INDIC DIGIT FOUR BELO
WxHAMZA ABOVExINVERTED SMALL V BELOWxSMALL ARABIC LETTER TAH ABOVEbwND TWO DOTSbvBELOWxTHREE DOT
S ABOVEbiPOINTING UPWARDS BELOWyWO DOTS ABOVEbgVERTICAL ABOVEqMZAt ISOLATED FORMpEHr DOACHASHMEEb
d FINAL FORMbeINITIAL FORMbfSOLATED FORMbeMEDIAL FORMsFINAL FORMsGOALw FINAL FORMxINITIAL FORMySO
LATED FORMxMEDIAL FORMxWITH HAMZA ABOVEsINITIAL FORMtSOLATED FORMsMEDIAL FORMsWITH INVERTED VxYE
H ABOVEbg FINAL FORMbhISOLATED FORMpIGH HAMZAy ALEFzWAWzYEHoJEEMs FINAL FORMtINITIAL FORMuSOLATE
D FORMtMEDIAL FORMtWITH THREE DOTS ABOVEbjBELOWzWO DOTS ABOVEqHr FINAL FORMsISOLATED FORMoKAFr FI
NAL FORMsINITIAL FORMtSOLATED FORMsMEDIAL FORMsWITH DOT ABOVEbbBELOWxRINGxTHREE DOTS BELOWyWO DOT
S ABOVEqSHMIRI YEHpEHEHt FINAL FORMuINITIAL FORMvSOLATED FORMuMEDIAL FORMuWITH DOT ABOVEzSMALL Vz
THREE DOTS ABOVEbkBELOWbkPOINTING UPWARDS BELOWbaWO DOTS ABOVEbiVERTICALLY BELOWpHAHs FINAL FORMt
INITIAL FORMuSOLATED FORMtMEDIAL FORMpIRGHIZ OEy FINAL FORMzISOLATED FORMwYUy FINAL FORMzISOLATE
D FORMoLAMr FINAL FORMsINITIAL FORMtSOLATED FORMsMEDIAL FORMsWITH BARxDOT ABOVEzUBLE BARxSMALL AR
ABIC LETTER TAH ABOVEbdVxTHREE DOTS ABOVEbiBELOWpOW ALEFoMARKpEEMs FINAL FORMtINITIAL FORMuSOLATE
D FORMtMEDIAL FORMtWITH DOT ABOVEbcBELOWyTHREE DOTS ABOVEoNGq FINAL FORMrINITIAL FORMsSOLATED FOR
MrMEDIAL FORMqOEHt FINAL FORMuINITIAL FORMvSOLATED FORMuMEDIAL FORMpOONs FINAL FORMtGHUNNAz FINA
L FORMbaISOLATED FORMtINITIAL FORMuSOLATED FORMtMEDIAL FORMtWITH DOT BELOWyINVERTED SMALL VyRINGy
SMALL TAHbeVyTHREE DOTS ABOVEzWO DOTS BELOWpYEHs FINAL FORMtINITIAL FORMuSOLATED FORMtMEDIAL FORM
oOEq FINAL FORMrISOLATED FORMoPEHr FINAL FORMsINITIAL FORMtSOLATED FORMsMEDIAL FORMsWITH SMALL ME
EM ABOVEbdVrEHt FINAL FORMuINITIAL FORMvSOLATED FORMuMEDIAL FORMoQAFr FINAL FORMsINITIAL FORMtSOL
ATED FORMsMEDIAL FORMsWITH DOT ABOVEbbBELOWbg AND NO DOTS ABOVExTHREE DOTS ABOVEoREHr FINAL FORMs
ISOLATED FORMsWITH DOT BELOWbg AND DOT ABOVExFOUR DOTS ABOVExHAMZA ABOVExINVERTED VxLOOPxRINGxSMA
LL ARABIC LETTER TAH AND TWO DOTSbdNOON ABOVEbdVbe BELOWyTROKExTWO DOTS ABOVEbgVERTICALLY ABOVEpN
OONt FINAL FORMuINITIAL FORMvSOLATED FORMuMEDIAL FORMpOHINGYA YEHpREHs FINAL FORMtISOLATED FORMoS
ADr FINAL FORMsINITIAL FORMtSOLATED FORMsMEDIAL FORMsWITH THREE DOTS ABOVEbiBELOWyWO DOTS BELOWpE
ENs FINAL FORMtINITIAL FORMuSOLATED FORMtMEDIAL FORMtWITH DOT BELOW AND DOT ABOVEyEXTENDED ARABIC
-INDIC DIGIT FOUR ABOVEyFOUR DOTS ABOVEyINVERTED VySMALL ARABIC LETTER TAH AND TWO DOTSyTHREE DOT
S BELOWbo AND THREE DOTS ABOVEzWO DOTS VERTICALLY ABOVEpHEENt FINAL FORMuINITIAL FORMvSOLATED FOR
MuMEDIAL FORMuWITH DOT BELOWpTRAIGHT WAWpUPERSCRIPT ALEFpWASH KAFoTAHr FINAL FORMsINITIAL FORMtSO
LATED FORMsMEDIAL FORMsWITH DOT BELOWxTHREE DOTS ABOVEbiBELOWyWO DOTS ABOVEpCHEHt FINAL FORMuINIT
IAL FORMvSOLATED FORMuMEDIAL FORMuWITH DOT ABOVEzSMALL VtEHv FINAL FORMwINITIAL FORMxSOLATED FORM
wMEDIAL FORMpEHr FINAL FORMsINITIAL FORMtSOLATED FORMsMARBUTAz FINAL FORMbaGOALbaISOLATED FORMtED
IAL FORMsWITH RINGxSMALL TEH ABOVEbdVxTHREE DOTS ABOVE DOWNWARDSrEHt FINAL FORMuINITIAL FORMvSOLA
TED FORMuMEDIAL FORMpHALs FINAL FORMtISOLATED FORMqEHs FINAL FORMtINITIAL FORMuSOLATED FORMtMEDIA
L FORMqIN YEHpTEHs FINAL FORMtINITIAL FORMuSOLATED FORMtMEDIAL FORMtWITH SMALL VsEHu FINAL FORMvI
NITIAL FORMwSOLATED FORMvMEDIAL FORMoUp FINAL FORMqISOLATED FORMqWITH HAMZA ABOVEbg ISOLATED FORM
pIGHUR KAZAKH KIRGHIZ ALEF MAKSURA INITIAL FORMbxMEDIAL FORMoVEq FINAL FORMrISOLATED FORMqHr FINA
L FORMsINITIAL FORMtSOLATED FORMsMEDIAL FORMoWAWr FINAL FORMsISOLATED FORMsWITH DOT ABOVEbbWITHIN
xEXTENDED ARABIC-INDIC DIGIT THREE ABOVEcaWO ABOVExHAMZA ABOVEbi FINAL FORMbjISOLATED FORMxRINGxT
WO DOTS ABOVEoYEHr BARREEy FINAL FORMzISOLATED FORMzWITH EXTENDED ARABIC-INDIC DIGIT THREE ABOVEc
hWO ABOVEbeHAMZA ABOVEbp FINAL FORMbqISOLATED FORMsFINAL FORMsINITIAL FORMtSOLATED FORMsMEDIAL FO
RMsWITH HAMZA ABOVEbi FINAL FORMbjINITIAL FORMbkSOLATED FORMbjMEDIAL FORMxSMALL VxTAILyHREE DOT
S BELOWyWO DOTS BELOW AND DOT ABOVEbqHAMZA ABOVEbqSMALL NOON ABOVEpUq FINAL FORMrISOLATED FORMoZA
Hr FINAL FORMsINITIAL FORMtSOLATED FORMsMEDIAL FORMqINs FINAL FORMtISOLATED FORMtWITH INVERTE
D V ABOVEiIGATURE AIN WITH ALEF MAKSURA FINAL FORMbmISOLATED FORMzJEEM INITIAL FORMbfSOLATED FORM
beWITH MEEM FINAL FORMboINITIAL FORMzMEEM INITIAL FORMbfSOLATED FORMbeWITH ALEF MAKSURA FINAL FOR
MbjMEEM FINAL FORMboINITIAL FORMbjYEH FINAL FORMzYEH FINAL FORMbdISOLATED FORMrKBAR ISOLATED FORM
rLAYHAA AS-SALAAMvE ISOLATED FORMvI AS-SALAAMbfTU WAS-SALAAMwM AS-SALAAMxAA AS-SALAAMsEF MAKSUR
A WITH SUPERSCRIPT ALEF FINAL FORMbzISOLATED FORMvWITH FATHATAN FINAL FORMbjISOLATED FORMsLAH ISO
LATED FORMrZZA WA JALLqBEH WITH ALEF MAKSURA FINAL FORMbmISOLATED FORMzHAH INITIAL FORMbeSOLATE
D FORMbdWITH YEH FINAL FORMbaEH INITIAL FORMbdMEDIAL FORMzJEEM INITIAL FORMbfSOLATED FORMzKHAH IN
ITIAL FORMbfSOLATED FORMbeWITH YEH FINAL FORMzMEEM FINAL FORMbeINITIAL FORMbfSOLATED FORMbeMEDIA
L FORMzNOON FINAL FORMzREH FINAL FORMzYEH FINAL FORMbdISOLATED FORMzZAIN FINAL FORMrISMILLAH AR-R
AHMAN AR-RAHEEMqDAD WITH ALEF MAKSURA FINAL FORMbmISOLATED FORMzHAH INITIAL FORMbeSOLATED FORMbdW
ITH ALEF MAKSURA FINAL FORMbiYEH FINAL FORMzJEEM INITIAL FORMbfSOLATED FORMzKHAH INITIAL FORMbfSO
LATED FORMbeWITH MEEM FINAL FORMboINITIAL FORMzMEEM INITIAL FORMbfSOLATED FORMzREH FINAL FORMbdIS
OLATED FORMzYEH FINAL FORMbdISOLATED FORMqFEH WITH ALEF MAKSURA FINAL FORMbmISOLATED FORMzHAH INI
TIAL FORMbeSOLATED FORMzJEEM INITIAL FORMbfSOLATED FORMzKHAH INITIAL FORMbfSOLATED FORMbeWITH MEE
M FINAL FORMboINITIAL FORMzMEEM INITIAL FORMbfSOLATED FORMbeWITH YEH FINAL FORMzYEH FINAL FORMbdI
SOLATED FORMqGHAIN WITH ALEF MAKSURA FINAL FORMboISOLATED FORMbbJEEM INITIAL FORMbhSOLATED FORMbb
MEEM INITIAL FORMbhSOLATED FORMbgWITH ALEF MAKSURA FINAL FORMblMEEM FINAL FORMblYEH FINAL FORMbbY
EH FINAL FORMbfISOLATED FORMqHAH WITH ALEF MAKSURA FINAL FORMbmISOLATED FORMzJEEM INITIAL FORMbfS
OLATED FORMbeWITH YEH FINAL FORMzMEEM INITIAL FORMbfSOLATED FORMbeWITH ALEF MAKSURA FINAL FORMbjY
EH FINAL FORMzYEH FINAL FORMbdISOLATED FORMrEH WITH ALEF MAKSURA ISOLATED FORMzJEEM INITIAL FORMb
fSOLATED FORMzMEEM INITIAL FORMbfSOLATED FORMbeWITH JEEM INITIAL FORMbjMEEM INITIAL FORMzSUPERSCR
IPT ALEF INITIAL FORMzYEH ISOLATED FORMqJALLAJALALOUHOUrEEM WITH ALEF MAKSURA FINAL FORMbnISOLATE
D FORMbaHAH INITIAL FORMbfSOLATED FORMbeWITH ALEF MAKSURA FINAL FORMbjYEH FINAL FORMbaMEEM INITIA
L FORMbgSOLATED FORMbfWITH ALEF MAKSURA FINAL FORMbkHAH FINAL FORMboINITIAL FORMbkYEH FINAL FORMb
aYEH FINAL FORMbeISOLATED FORMqKAF WITH ALEF FINAL FORMbeISOLATED FORMbeMAKSURA FINAL FORMbmISOLA
TED FORMzHAH INITIAL FORMbeSOLATED FORMzJEEM INITIAL FORMbfSOLATED FORMzKHAH INITIAL FORMbfSOLATE
D FORMzLAM FINAL FORMbdINITIAL FORMbeSOLATED FORMbdMEDIAL FORMzMEEM FINAL FORMbeINITIAL FORMbfSOL
ATED FORMbeMEDIAL FORMbeWITH MEEM FINAL FORMboINITIAL FORMbjYEH FINAL FORMzYEH FINAL FORMbdISOLAT
ED FORMrHAH WITH ALEF MAKSURA FINAL FORMbnISOLATED FORMbaHAH ISOLATED FORMbaJEEM INITIAL FORMbgSO
LATED FORMbaMEEM INITIAL FORMbgSOLATED FORMbaYEH FINAL FORMbeISOLATED FORMqLAM WITH ALEF FINAL FO
RMbeISOLATED FORMbeMAKSURA FINAL FORMbmISOLATED FORMbeWITH HAMZA ABOVE FINAL FORMbvISOLATED FORMb
pBELOW FINAL FORMbvISOLATED FORMbjMADDA ABOVE FINAL FORMbvISOLATED FORMzHAH INITIAL FORMbeSOLATE
D FORMbdWITH ALEF MAKSURA FINAL FORMbiMEEM FINAL FORMbnINITIAL FORMbiYEH FINAL FORMbaEH INITIAL F
ORMzJEEM INITIAL FORMbfSOLATED FORMbeWITH JEEM FINAL FORMboINITIAL FORMbjMEEM FINAL FORMboINITIA
L FORMbjYEH FINAL FORMzKHAH INITIAL FORMbfSOLATED FORMbeWITH MEEM FINAL FORMboINITIAL FORMzMEEM F
INAL FORMbeINITIAL FORMbfSOLATED FORMbeMEDIAL FORMbeWITH HAH FINAL FORMbnINITIAL FORMbjYEH FINA
L FORMzYEH FINAL FORMbdISOLATED FORMqMEEM WITH ALEF FINAL FORMbfMAKSURA ISOLATED FORMbaHAH INITIA
L FORMbfSOLATED FORMbeWITH JEEM INITIAL FORMbjMEEM INITIAL FORMbjYEH FINAL FORMbaJEEM INITIAL FOR
MbgSOLATED FORMbfWITH HAH INITIAL FORMbkKHAH INITIAL FORMbkMEEM INITIAL FORMbkYEH FINAL FORMbaKHA
H INITIAL FORMbgSOLATED FORMbfWITH JEEM INITIAL FORMbkMEEM INITIAL FORMbkYEH FINAL FORMbaMEEM FIN
AL FORMbfINITIAL FORMbgSOLATED FORMbfWITH YEH FINAL FORMbaYEH ISOLATED FORMrOHAMMAD ISOLATED FORM
qNOON WITH ALEF MAKSURA FINAL FORMbnISOLATED FORMbaHAH INITIAL FORMbfSOLATED FORMbeWITH ALEF MAKS
URA FINAL FORMbjMEEM INITIAL FORMbjYEH FINAL FORMbbEH INITIAL FORMbeMEDIAL FORMbaJEEM INITIAL FOR
MbgSOLATED FORMbfWITH ALEF MAKSURA FINAL FORMbkHAH FINAL FORMboINITIAL FORMbkMEEM FINAL FORMbpINI
TIAL FORMbkYEH FINAL FORMbaKHAH INITIAL FORMbgSOLATED FORMbaMEEM FINAL FORMbfINITIAL FORMbgSOLATE
D FORMbfMEDIAL FORMbfWITH ALEF MAKSURA FINAL FORMbkYEH FINAL FORMbaNOON FINAL FORMbaREH FINAL FOR
MbaYEH FINAL FORMbeISOLATED FORMbaZAIN FINAL FORMqQAF WITH ALEF MAKSURA FINAL FORMbmISOLATED FORM
zHAH INITIAL FORMbeSOLATED FORMzMEEM INITIAL FORMbfSOLATED FORMbeWITH HAH FINAL FORMbnINITIAL FOR
MbjMEEM FINAL FORMbjYEH FINAL FORMzYEH FINAL FORMbdISOLATED FORMsLA USED AS KORANIC STOP SIGN ISO
LATED FORMrUDDISA SIRRAHqRADI ALLAAHU ANHbgAAbgUMbiAAbhNNAsHIMAHU ALLAAHyM ALLAAHsSOUL ISOLATED F
ORMrEH WITH SUPERSCRIPT ALEF ISOLATED FORMqSAD WITH ALEF MAKSURA FINAL FORMbmISOLATED FORMzHAH IN
ITIAL FORMbeSOLATED FORMbdWITH HAH FINAL FORMbmINITIAL FORMbiYEH FINAL FORMzKHAH INITIAL FORMzMEE
M INITIAL FORMbfSOLATED FORMbeWITH MEEM FINAL FORMboINITIAL FORMzREH FINAL FORMbdISOLATED FORMzYE
H FINAL FORMbdISOLATED FORMsLAAMUHU ALAYNAAuM ISOLATED FORMtLA ISOLATED FORMwUSED AS KORANIC STO
P SIGN ISOLATED FORMvLLAAHU ALAYHI WA-AALIHyHOU ALAYHE WASALLAMzU ALAYHI WAAALIHEE WA-SALLAMrEE
N WITH ALEF MAKSURA FINAL FORMbnISOLATED FORMbaHAH INITIAL FORMbfSOLATED FORMbeMEDIAL FORMbeWIT
H JEEM INITIAL FORMbbEH INITIAL FORMbeMEDIAL FORMbaJEEM INITIAL FORMbgSOLATED FORMbfMEDIAL FORMbf
WITH ALEF MAKSURA FINAL FORMbkHAH INITIAL FORMbaKHAH INITIAL FORMbgSOLATED FORMbfMEDIAL FORMbfWIT
H ALEF MAKSURA FINAL FORMbkYEH FINAL FORMbaMEEM INITIAL FORMbgSOLATED FORMbfMEDIAL FORMbfWITH HA
H FINAL FORMboINITIAL FORMbkJEEM INITIAL FORMbkMEEM FINAL FORMbpINITIAL FORMbaREH FINAL FORMbeISO
LATED FORMbaYEH FINAL FORMbeISOLATED FORMrHADDA WITH DAMMA ISOLATED FORMbiMEDIAL FORMbhTAN ISOLAT
ED FORMbcFATHA ISOLATED FORMbiMEDIAL FORMbcKASRA ISOLATED FORMbiMEDIAL FORMbhTAN ISOLATED FORMbcS
UPERSCRIPT ALEF ISOLATED FORMsEEN WITH ALEF MAKSURA FINAL FORMboISOLATED FORMbbHAH FINAL FORMbfIN
ITIAL FORMbgSOLATED FORMbfMEDIAL FORMbfWITH MEEM FINAL FORMbpINITIAL FORMbkYEH FINAL FORMbcEH INI
TIAL FORMbfMEDIAL FORMbbJEEM FINAL FORMbgINITIAL FORMbhSOLATED FORMbgMEDIAL FORMbgWITH YEH FINA
L FORMbbKHAH FINAL FORMbgINITIAL FORMbhSOLATED FORMbgMEDIAL FORMbbMEEM FINAL FORMbgINITIAL FORMbh
SOLATED FORMbgMEDIAL FORMbgWITH KHAH FINAL FORMbqINITIAL FORMblMEEM FINAL FORMbqINITIAL FORMbbRE
H FINAL FORMbfISOLATED FORMbbYEH FINAL FORMbfISOLATED FORMrUBHAANAHU WA TAAALAAqTABAARAKA WA-TAAA
LAAsH WITH ALEF MAKSURA FINAL FORMbmISOLATED FORMzHAH INITIAL FORMbeSOLATED FORMzMEEM INITIAL FOR
MbfSOLATED FORMbeMEDIAL FORMbeWITH HAH FINAL FORMbnINITIAL FORMbjMEEM INITIAL FORMbjYEH FINAL FOR
MzYEH FINAL FORMbdISOLATED FORMrEH WITH ALEF MAKSURA FINAL FORMbmISOLATED FORMzHAH INITIAL FORMbe
SOLATED FORMbdWITH JEEM FINAL FORMbnINITIAL FORMbiMEEM INITIAL FORMbaEH INITIAL FORMbdMEDIAL FORM
zJEEM INITIAL FORMbfSOLATED FORMbeWITH ALEF MAKSURA FINAL FORMbjMEEM INITIAL FORMbjYEH FINAL FORM
zKHAH INITIAL FORMbfSOLATED FORMbeWITH ALEF MAKSURA FINAL FORMbjMEEM INITIAL FORMbjYEH FINAL FORM
zMEEM FINAL FORMbeINITIAL FORMbfSOLATED FORMbeMEDIAL FORMbeWITH ALEF MAKSURA FINAL FORMbjHAH INIT
IAL FORMbjJEEM INITIAL FORMbjKHAH INITIAL FORMbjYEH FINAL FORMzNOON FINAL FORMzREH FINAL FORMzYE
H FINAL FORMbdISOLATED FORMzZAIN FINAL FORMrHAL WITH SUPERSCRIPT ALEF ISOLATED FORMsEH WITH ALE
F MAKSURA FINAL FORMbnISOLATED FORMbaHEH MEDIAL FORMbaJEEM ISOLATED FORMbaMEEM FINAL FORMbfINITIA
L FORMbgSOLATED FORMbfMEDIAL FORMbaNOON FINAL FORMbaREH FINAL FORMbaYEH FINAL FORMbeISOLATED FORM
baZAIN FINAL FORMqUIGHUR KIRGHIZ YEH WITH HAMZA ABOVE WITH ALEF MAKSURA FINAL FORMcsINITIAL FORMc
tSOLATED FORMqWASALLAM ISOLATED FORMqYEH WITH ALEF MAKSURA FINAL FORMbmISOLATED FORMzHAH INITIA
L FORMbeSOLATED FORMbdWITH YEH FINAL FORMbbMZA ABOVE WITH AE FINAL FORMbtISOLATED FORMbrLEF FINA
L FORMbvISOLATED FORMbvMAKSURA FINAL FORMcdISOLATED FORMbqE FINAL FORMbsINITIAL FORMbtSOLATED FOR
MbqHAH INITIAL FORMbvSOLATED FORMbrEH INITIAL FORMbuMEDIAL FORMbqJEEM INITIAL FORMbwSOLATED FORMb
qKHAH INITIAL FORMbqMEEM FINAL FORMbvINITIAL FORMbwSOLATED FORMbvMEDIAL FORMbqNOON FINAL FORMbqO
E FINAL FORMbtISOLATED FORMbqREH FINAL FORMbqU FINAL FORMbsISOLATED FORMbqWAW FINAL FORMbuISOLATE
D FORMbqYEH FINAL FORMbuISOLATED FORMbrU FINAL FORMbtISOLATED FORMbqZAIN FINAL FORMbaEH INITIAL F
ORMbdMEDIAL FORMzJEEM INITIAL FORMbfSOLATED FORMbeWITH YEH FINAL FORMzKHAH INITIAL FORMbfSOLATE
D FORMzMEEM FINAL FORMbeINITIAL FORMbfSOLATED FORMbeMEDIAL FORMbeWITH MEEM FINAL FORMboINITIAL FO
RMbjYEH FINAL FORMzNOON FINAL FORMzREH FINAL FORMzYEH FINAL FORMbdISOLATED FORMzZAIN FINAL FORMqZ
AH WITH MEEM INITIAL FORMbfSOLATED FORMbeMEDIAL FORMhMADDA WAAJIBmH ABOVEjRK NOON GHUNNAmSIDEWAY
S NOON GHUNNAjTHEMATICAL AINvLEFuBEHuDADwLvOTLESS BEHbcFEHbcNOONbcQAFwUBLE-STRUCK AINbiBEHbiDADbk
LbiFEHbiGHAINbiHAHbiJEEMbiKHAHbiLAMbiMEEMbiNOONbiQAFbiREHbiSADbjEENbjHEENbiTAHbjEHbjHALbkEHbiWAWb
iYEHbiZAHbkINuFEHuGHAINuHAHuINITIAL AINbcBEHbcDADbcFEHbcGHAINbcHAHbdEHbcJEEMbcKAFbdHAHbcLAMbcMEEM
bcNOONbcQAFbcSADbdEENbdHEENbcTEHbdHEHbcYEHuJEEMuKAFvHAHuLAMvOOPED AINbcLEFbbBEHbbDADbdLbbFEHbbGHA
INbbHAHbcEHbbJEEMbbKHAHbbLAMbbMEEMbbNOONbbQAFbbREHbbSADbcEENbcHEENbbTAHbcEHbcHALbdEHbbWAWbbYEHbbZ
AHbdINuMEEMuNOONuOPERATOR HAH WITH DALbdMEEM WITH HAH WITH TATWEELuQAFuREHuSADvEENvHEENvTRETCHE
D AINbeBEHbeDADbfOTLESS BEHbmFEHbeFEHbeGHAINbeHAHbfEHbeJEEMbeKAFbfHAHbeMEEMbeNOONbeQAFbeSADbfEENb
fHEENbeTAHbfEHbfHEHbeYEHbeZAHuTAHwILED AINbbDADbcOTLESS NOONbjQAFbbGHAINbbHAHbbJEEMbbKHAHbbLAMbbN
OONbbQAFbbSADbcEENbcHEENbbYEHvEHvHALwEHuWAWuYEHuZAHwINhNUMBER MARK ABOVEoSIGNhOPEN DAMMATANmFATHA
TANmKASRATANhPERCENT SIGNiIASTRE MARK ABOVEiLACE OF SAJDAHiOETIC VERSE SIGNjUND MARK ABOVEhQUESTI
ON MARKhRAISED ROUND DOTjYiEVERSED DAMMAiIGHT ARROWHEAD ABOVEbc WITH DOTxBELOWiOUNDED HIGH STOP W
ITH FILLED CENTREhSEMICOLONiHADDAn ISOLATED FORMoMEDIAL FORMiIGN ALAYHE ASSALLAMmMISRAmRADI ALLAH
OU ANHUoHMATULLAH ALAYHEmSAFHAoLLALLAHOU ALAYHE WASSALLAMoMVAToNAHnINDHI AMPERSANDtPOSTPOSITION M
ENmTAKHALLUSiMALL DAMMAnFARSI YEHpTHAnHIGH AINsDOTLESS HEAD OF KHAHsFARSI YEHtOOTNOTE MARKERsJEEM
sLAM ALEFtIGATURE ALEF WITH LAM WITH YEHbbQAF WITH LAM WITH ALEF MAKSURAbbSAD WITH LAM WITH ALE
F MAKSURAsMADDAtEEM INITIAL FORMySOLATED FORMsNOONw WITH KASRAsQAFsROUNDED ZEROsSADtEENtIGN SAFHA
sTAHtHREE DOTSsUPRIGHT RECTANGULAR ZEROsWAWtORD AL-JUZyN-NISFyR-RUByS-SAJDAyTH-THALATHAxQIFxSAHzK
TAxWAQFAsYEHv BARREE WITH TWO DOTS BELOWsZAHuINnKASRAnLOW MEEMrNOON WITH KASRArSEENrWAWsORD IMAAL
AxSHMAAMwTASHEELnWAWnYEHiTART OF RUB EL HIZBiUBSCRIPT ALEFjKUNm BELOWnISOLATED FORMnMEDIAL FORMjP
ERSCRIPT ALEF MOKHASSASiYMBOL DOT ABOVEsBELOWqUBLE VERTICAL BAR BELOWoFOUR DOTS ABOVEyBELOWoRINGo
SMALL TAH ABOVEyBELOWoTHREE DOTS ABOVEzBELOWzPOINTING DOWNWARDS ABOVEbsBELOWpWO DOTS ABOVExBELOWx
VERTICALLY ABOVEbiBELOWoWASLA ABOVEhTAIL FRAGMENTjTWEELo WITH FATHATAN ABOVEuOVERSTRUCK HAMZAbfWA
WuTWO DOTS BELOWiHOUSANDS SEPARATORiONE LOOP ABOVErBELOWmONE DOT ABOVEuBELOWmTWO DOTS ABOVEvBELOW
iRIPLE DOT PUNCTUATION MARKiURNED DAMMA BELOWhVERTICAL TAILiOWEL SIGN DOT BELOWsINVERTED SMAL
L V ABOVEsSMALL V ABOVEhWAVY HAMZA BELOWhZWARAKAYg-INDIC CUBE ROOTnDIGIT EIGHTtFIVEuOURtNINEtONEt
SEVENuIXtTHREEuWOtZEROnFOURTH ROOTnPER MILLE SIGNrTEN THOUSAND SIGNcCcIEScMENIAN ABBREVIATION MAR
KkPOSTROPHEjCAPITAL LETTER AYByBENyCAzHAbaEHzOyDAyECHzHzTyFEHyGHADzIMyHOyINIyJAzHEHyKEHbaNyLIWNyM
ENyNOWyOHyPEHzIWRyRAzEHySEHzHAyTIWNzOyVEWzOyXEHyYIbaWNyZAzHEkOMMAjDRAM SIGNjEMPHASIS MARKkXCLAMAT
ION MARKjFULL STOPjHYPHENjMODIFIER LETTER LEFT HALF RINGjQUESTION MARKjSMALL LETTER AYBwBENwCAxHA
yEHxOwDAwECHxHxTwFEHwGHADxIMwHOwINIwJAxHEHwKEHyNwLIWNwMENwNOWwOHwPEHxIWRwRAxEHwSEHxHAwTIWNxOxURNE
D AYBwVEWxOwXEHwYIy WITH STROKEyWNwZAxHEqIGATURE ECH YIWNyMEN ECHbcINIbcNOWbcXEHyVEW NOWcROW POIN
TING DOWNWARDS THEN CURVING LEFTWARDSbmRIGHTWARDSpRIGHTWARDS THEN CURVING DOWNWARDSbnSOUTH WESTbn
UPWARDSpUPWARDS THEN NORTH WESTfHEAD-SHAPED POINTERcTICULATED LORRYeST PALETTEbSCENDING NODEdIA S
YMBOLcSERTIONcTERISK OPERATORhMdONISHED FACEdRAEAeONOMICAL SYMBOL FOR URANUScYMPTOTICALLY EQUAL T
ObTHLETIC SHOEcOM SYMBOLbUBERGINEcSTRAL SIGNcTO RICKSHAWeMATED TELLER MACHINEfOBILEbVESTAN ABBREV
IATION MARKiLETTER AqArNrOqErEqNqOpBEqHEpCEpDEqHEpEqEpFEpGEqGEqHEpHEqMEpIqIpJEpKEpLEpMEpNEqGErVEr
YEqNEqYEpOqOpPEpREpSEqHErYEqSHEpTEqHEqTEpUqUpVEpXEqVEqYEpYEqYEpZEqHEcOCADObXE"),
  ('B', "
aBABYe ANGELfBOTTLEfCHICKfSYMBOLcCK OF ENVELOPEfWITH LEFTWARDS ARROW ABOVEe-TILTED SHADOWED WHIT
E RIGHTWARDS ARROWeSLANTED SOUTH ARROW WITH HOOKED TAILbfRIZONTAL TAILdONdTRIAN CAMELcDGERdMINTO
N RACQUET AND SHUTTLECOCKcGELdGAGE CLAIMdUETTE BREADcLINESE ADEG ADEGjCARIK PAMUNGKAHrRERENpSIKIj
DIGIT EIGHTpFIVEqOURpNINEpONEpSEVENqIXpTHREEqWOpZEROjLETTER AIKARArKARAv TEDUNGrRCHAIC JNYArSYUR
A SASAKqBAs KEMBANGqCAs LACAqDAs MADUuURDA ALPAPRANAzMAHAPRANAqEF SASAKrKARAqGAs GORAqHAqIKARAv T
EDUNGqJAs JERAqKAs MAHAPRANAsF SASAKrHOT SASAKqLAs LENGAy TEDUNGqMAqNAs RAMBATrGArYAqOKARAv TEDUN
GqPAs KAPALqRAs REPAx TEDUNGqSAs SAGAvPAqTAs LATIKtMURDA MAHAPRANAtTAWArZIR SASAKqUKARAv TEDUNGqV
E SASAKqWAqYAqZAL SASAKjMUSICAL SYMBOL COMBINING BENDEbiENDEPbiGONGbiJEGOGANbiKEMPLIbo WITH JEGOG
ANbmULbo WITH JEGOGANbiTEGEHyDAENGbaINGbaNGbc GEDEbdSURANGzENGbaUNGzINGzONGzUNGyLEFT-HAND CLOSE
D PLAKbrUKbiOPEN PANGboINGboUNGyRIGHT-HAND CLOSED TAKbrUKbjOPEN DAGbpUGjPAMADAp LANTANGmENENGlNTI
o LANTANGjSIGN BISAHoCECEKoREREKANoSURANGoULU CANDRAsRICEMjVOWEL SIGN LA LENGAbc TEDUNGuPEPETz TE
DUNGuRA REPAbb TEDUNGuSUKUy ILUTuTALINGba REPAbf TEDUNGbbTEDUNGvEDUNGuULUx SARIjWINDUdL OF YARNeE
T SHOESeOONh-SPOKED ASTERISKfT BOLD SCRIPT XjXk WITH BALLOTrOLD CHECKvSCRIPT XqCHECKqLIGHT XqSCRI
PT XqXhSCRIPT XhXcMUM COLONiMBINING MARK KOQNDONvTUKWENTISjMAgFULL STOPgLETTER AnEEnFAAMAEoEEoOMo
UnInKAoENpTpUXoIoOpGHOMpVUUoPAoUoYEEnLAoEEEEoIoOQoUnMoAoBAApENoEEEEpNoIoOoUnNAoDAAoGApGApKWAENoIo
JAEMpEEpUAEoSHAoTEEpUUoUpAEoYInOnPAoEEpUXoHASE-A FIRIvGBIEE FONwHEUAEGHEUAEbbRAEvKAFAxQwETxUKEUTN
DAwPOQwUOQvLAPAQwET KUTwOMMAEwUxAEPvMAEKEUPyMzBGBIEEzKPENzVEUXyNYIySIxNSUAExP PIEETwBANYIyQwEUNJO
MNDEUQwGBASAwON NGGEUAETxOMEUTzPUQwVEUAENGAMvNAA MFONxQwDA LEERAEWAyANGGEUAETwENwGANGUxGENxKUE MF
ONbaNZEUMwIKAwJAMwKAARAExINDIwSHAyIEEwTAPz MFAAbaNTAAxOQPENwYETxIyT MONGKEUAEQwZA MFONxUN MEUTvP
A LEERAEWAxAMyRAExMSHAExSHAEwETwON MFON PIPAEMBAbkGBIEEzPA NJI PIPAEMBAbmGBIEEwUPvROMvSEUNYAMwHIN
DA PA NJIyRAExOQ NSHUT YUMxUENSHUETyMwISAwONJAMxQxTwUUvTEUAENyTEUWENwITA MFONwU MAEMBAxAEPvU YU
Q NAEwNKNOWNvVEEtB FEExUXvGHEUGHENbcUAEMvKAMwEUAEMyPUQyYEUXwIEEMxQvLAANAExM NSHUT NYAMwETwOM NTEU
MvMAx NJEUAENAbaUQAwBA MAELEEyARAExEURIxIT MBAAKETxUOQwEUQyT NGGEETwFIYAQxON TEUAEQwONTIEENvNDU N
JAAwGGAAMyEU MBUyUOQbb LARGExKINDI MVOPxOMwSENxHUETwTIEE SHEUOQwYAEMAExI NTEUMvPARUMwEESHIwITwUNG
AAMvSAKEUAEwET TUwHET NJAQyUAEQTUwIEEwUEvTAAMwU MAEMGBIEEyNSIEEvVEUMvWUAETvYAFU LEERAEWAwEURAEt
C BUNGvFUEvGBAYIwHAPyRAEvKAAwEN FATIGUEzLAWxTxUKAQyMySEUXzHEUAEPwPARAQwUOP NKAARAExTvLAMxPwIQwUvM
A KEUAERIyNSIEExEMBAySIwBAA CABBAGE-TREEbaPICKETyNYIxEEKEETyRAEyUMzXxIyRIEENyTxUAEMyEwGBASAQwIEEw
UAEvNANSANAQxQwDAMyPxEUAEREEzTxIDAxOMBUwGAQxGENyUzAEN NYAMzEETzMzONxKAQyUE MAEMBAxOMwJAEMyMxEEEEy
UXxUEQwSAxEUAENxHAQxOMxUNyOT NGOMwTAAxENyUNGBAxU MBITwYIR MKPARAQ MEUNwZAxEUMvPENwINxRIEENvRUvSET
FONxUXwHIQxUEQwUAETvTAASHAEwETxUTEUXwITA YUEyUAEPvVEUAEPENyXvWANGKUOQwUPvYAAwEUQwU MUOMAExMxWOQt
D FAAwEUFEUAETvGHAAxEUAEvKETxUAETMEUNyMyOT MBUAEyPwUxNxOMxQwWAETwYEEvLEEEExTxUAEPyMwIEEwOQwUMvMwA
ENJETxLEERIwBAAz SEVENxUOwEEEExUNyTwFEUAEzTxIEExOyNwGBEUNyIEEyOFUMwONIwUwVOPvNDAMxEEyUXxONwGGAAMb
bAEzPyEUXyUOMyWAENxKAPyEUAEQbaRIyIEEyUNyYEEwIwJAPxEUAEMzTxIyEExUEQwSHEEyUTxIEEPbaTxUMwTEEyUMxUUwU
wYAMxETxIxUEvPAPwEExUTAEwIPwUQxUTvRAEMwEN MUCHzOLDwIIvSAPxQwEUAEQwHEEyUAEzXxIIxOQxUwOTwUAExExUvTA
EwEEEExUAENyNyTwIwOQwUxOTvWAPwUAENvYAEMMAEwENwUOMyPxWOQtE AvFAxQwEEwOMwU CALLyIyREMEDYxEyTvGBETyU
XwHAAMAExETyUAEzNzXxOMvIvKETxUAEyXwIwOwPEUXwUETxOPxTvLAAMxPxQwEUAEMwOMxONyTxQwUvMAxEyMxPxQwBEEyUM
wENwFEUQwGBAyENwIxEEwONwUAEwVIvNAxEwDAA MY HOUSEbaSOFTNESSyPxIAQyQxUNwGAxEUREUTxGEEEEzUAEbcTyUAES
HAE NYAMzPzRAExKAzAMIyEUAEMbaXyUMzPxOPyQxUAEbaTwJAEMLIxEEz EPOCHyUXwKOMwSHIEEyUEzOPwTAPxUMwYI BET
WEENzCLEAVERwZAQxUQvOvPA PEOPLEzLURALxAyMwEEMxUTyXwIxEEQyTwOxONwUxAEyQxExMvRAExQwEUXwIMGBAvSAAwEE
xTwHEUAEQxIQxOyQwOMwUAENvTAAyQxEN NTEUMxMxQwENxUyAEQwOOyNxQwUAExMyAEvVEExUAEwOMvWEUXwUExOvYAPwEUA
EbaTyMyXwIEExTwOQ COVERzSWIMMINGwUAENxEQxNxQtF EEvFOMvKAwENxTwOwPAwUwYEEvLAwIwOQvMwAwBAAxENwEEEEw
OvNDAAwGGAxKWAENwIwJAEMxUAEwSHAwTEEwUxAEwYIvPEExUXwUAEvREExNxUXwIEExIwUvSAMBAwEUXwHIIxOxUwIwUUvTA
AxEwETvUvVUEQvWAwUEvYAwOQoIoUAEpEnRAEoEEpNpUXoIEEpIoUnSAMBAoEUXoHEUXpIIpOpUoIoUUnTAApEoENpToInUnW
AoUEnYAoOQoUQgNJAEMLIgQUESTION MARKgSEMICOLONcNANAdJOdKeNOTE WITH DOLLAR SIGNoEURO SIGNoPOUND SIG
NoYEN SIGNcR CHARTeOF SOAPdBER POLEcSEBALLdKETgBALL AND HOOPdSA VAH COMBINING HIGH TONEy-LOW TONE
uLOW TONEx-MID TONEuMID TONEkFULL STOPkLETTER ArBArCErDHIIsOrEsEsNNIrFArGAHsBUrHWAHrIrJOrKAsPAHrM
BErOsOrPArSErTOrUsWUrVUrWAtDDArYEINsIErZOcTdAK CONSONANT SIGN HvNGgLETTER AnBAnCAnDAnGAnHAnInJAnK
ARO BAnLAnMApNDAILING HAyNAySAoBAnNAoDAoGAoORTHERN TAoYAnPApKPAK WAnRAnSAoIMALUNGUN AyGAyHAyLAyMA
yPAyRAySAyWAyYAoOUTHERN TAnUnWAnYAgPANGOLATjONGONANgSIGN TOMPIhYMBOL BINDU JUDULtNA METEKtPANGOLA
TuINARBORASgVOWEL SIGN EsErIrKARO IwOrOrPAKPAK ErUs FOR SIMALUNGUN SAdHeTUBdTERYbEACH WITH UMBREL
LAdMED ASCENDING MUSICAL NOTEShDESCENDING MUSICAL NOTEShEIGHTH NOTEShSIXTEENTH NOTESdNSdR FACEeDE
D PERSONdTING HEARTdVERcCAUSEcDcER MUGdTLEcLLe PEPPERfSYMBOLfWITH CANCELLATION STROKEeHOP BELLcNG
ALI ABBREVIATION SIGNjNJIjU LENGTH MARKiCURRENCY DENOMINATOR SIXTEENrNUMERATOR FOURbbONEbe LESS T
HAN THE DENOMINATORbbTHREEbcWOiDIGIT EIGHToFIVEpOURoNINEoONEoSEVENpIXoTHREEpWOoZEROiGANDA MARKiIS
SHARiLETTER AqAqIqUpBAqHApCAqHApDAqDArHAqHApEpGAqHApHApIqIpJAqHApKAqHAsNDA TApLApMApNAqGAqNAqYApO
pPAqHApRAr WITH LOWER DIAGONALxMIDDLE DIAGONALqHAqRApSAqHAqSApTAqHAqTArHApUqUpVEDIC ANUSVARAqOCAL
IC LyLxRyRpYAqYAiRUPEE MARKoSIGNiSANDHI MARKjIGN ANUSVARAoVAGRAHAnCANDRABINDUnNUKTAnVIRAMApSARGAi
VOWEL SIGN AAuIuUtEtIuItOtUuUtVOCALIC LbcLbbRbcRdT ARROW POINTING DOWNWARDS THEN NORTH EASTeO BOX
dZENE RINGm WITH CIRCLEcT SYMBOLdWEENcVERAGE BOXbHAIKSUKI DANDAlIGIT EIGHTqFIVErOURqNINEqONEqSEVE
NrIXqTHREErWOqZEROlOUBLE DANDAkGAP FILLER-1v2kHUNDREDS UNIT MARKkLETTER AsAsIsUrBAsHArCAsHArDAsDA
tHAsHArErGAsHArHArIsIrJAsHArKAsHArLArMArNAsGAsNAsYArOrPAsHArRArSAsHAsSArTAsHAsTAtHArUsUrVAsOCALI
C LzRbaRrYAkNUMBER EIGHTwYrFIFTYtVEsORTYtURrNINEvTYrONErSEVENwTYsIXuTYrTENsHIRTYtREEsWENTYtOkSIG
N ANUSVARAqVAGRAHApCANDRABINDUpVIRAMArSARGAkVOWEL SIGN AAwIwUvEvIwIvOvUwUvVOCALIC LbdRbeRkWORD SE
PARATORbICYCLEgISTcG REVERSE SOLIDUSeSOLIDUScKINIcLLED CAPeIARDScOHAZARD SIGNcRDdTHDAY CAKEcSONcT
COIN SIGNdING LIPbLACK BOWTIEgCENTRE WHITE STARhHESS BISHOPs ROTATED NINETY DEGREESbbTWO HUNDRE
D SEVENTY DEGREESmEQUIHOPPERw ROTATED NINETY DEGREESmKINGq ROTATED NINETY DEGREESzTWO HUNDRED SEV
ENTY DEGREESnNIGHTs ROTATED FORTY-FIVE DEGREESbbNINETY DEGREESbbONE HUNDRED THIRTY-FIVE DEGREESbb
THREE HUNDRED FIFTEEN DEGREESbcWO HUNDRED SEVENTY DEGREESbnTWENTY-FIVE DEGREESs-BISHOPtQUEENtROOK
mPAWNq ROTATED NINETY DEGREESzTWO HUNDRED SEVENTY DEGREESmQUEENr ROTATED NINETY DEGREESbaTWO HUND
RED SEVENTY DEGREESmROOKq ROTATED NINETY DEGREESzTWO HUNDRED SEVENTY DEGREESmTURNED BISHOPtKINGuN
IGHTtPAWNtQUEENtROOKhIRCLEm FOR RECORDnWITH DOWN ARROWsTWO WHITE DOTSsWHITE DOT RIGHThLUB SUIThRO
SS ON SHIELDhURVED DOWNWARDS AND LEFTWARDS ARROWbbRIGHTWARDS ARROWnLEFTWARDS AND DOWNWARDS ARROWb
bUPWARDS ARROWnRIGHTWARDS AND DOWNWARDS ARROWbcUPWARDS ARROWnUPWARDS AND LEFTWARDS ARROWzRIGHTWAR
DS ARROWgDIAMONDn CENTREDoMINUS WHITE XoON CROSSoSUIToWITH DOWN ARROWhOWN POINTING BACKHAND INDEX
k-POINTING DOUBLE TRIANGLEuISOSCELES RIGHT TRIANGLEuSMALL TRIANGLEuTRIANGLEkWARDS EQUILATERAL ARR
OWHEADhRAUGHTS KINGpMANiOPLETgFLAGiORETTEhOLDERiUR POINTED STARgHARD SHELL FLOPPY DISKhEARTl SUIT
iXAGONhORIZONTAL ELLIPSEiURGLASSgLARGE CIRCLEmSQUAREhEFT LANE MERGElPOINTING BACKHAND INDEXuINDEX
k-POINTING DOUBLE TRIANGLEbj WITH VERTICAL BARuISOSCELES RIGHT TRIANGLEuPOINTERuSMALL TRIANGLEuTR
IANGLEkWARDS BULLETqEQUILATERAL ARROWHEADhOWER LEFT TRIANGLEmRIGHT TRIANGLEiZENGEgMEDIUM DIAMONDo
OWN-POINTING TRIANGLEbj CENTREDnLEFT-POINTING TRIANGLEbj CENTREDoOZENGEnRIGHT-POINTING TRIANGLEb
k CENTREDnSMALL DIAMONDtLOZENGEtSQUAREoQUAREnUP-POINTING TRIANGLEbh CENTREDhOON LILITHgNIBgOCTAGO
NgPARALLELOGRAMhENNANTjTAGONhUSHPINgQUESTION MARK ORNAMENTgRECTANGLEhIGHT POINTING BACKHAND INDEX
vINDEXl-POINTING DOUBLE TRIANGLEbk WITH VERTICAL BARvISOSCELES RIGHT TRIANGLEvPENTAGONwOINTERvSMA
LL TRIANGLEvTRIANGLEbd WITH DOUBLE VERTICAL BARlWARDS ARROWwHEADrBULLETrEQUILATERAL ARROWHEADhOSE
TTEgSAFETY SCISSORShCISSORShHOGI PIECEhKULL AND CROSSBONEShLIGHTLY SMALL CIRCLEvSQUAREhMALL DIAMO
NDmLOZENGEmSQUAREnTARiILING FACEhNOWMANhPADE SUIThQUAREm BUTTONnCENTREDnFOR STOPhTARhUN WITH RAYS
gTELEPHONEhINY DIAMONDlLOZENGElSQUAREhOUCHTONE TELEPHONEhRUCKhWO-WAY LEFT WAY TRAFFICgUNIVERSAL R
ECYCLING SYMBOLhP POINTING BACKHAND INDEXi-POINTING DOUBLE TRIANGLEsISOSCELES RIGHT TRIANGLEsSMAL
L TRIANGLEsTRIANGLEiPER LEFT TRIANGLEmRIGHT TRIANGLEiWARDS EQUILATERAL ARROWHEADgVERTICAL ELLIPSE
pRECTANGLEjY SMALL DIAMONDrLOZENGErSQUAREf-FEATHERED NORTH EAST ARROWqRIGHTWARDS ARROWqSOUTH EAS
T ARROWgLETTER CAPITAL CvHvIvRvZdNK SYMBOLcOCK SEXTANT-1p2q3r4s5s6r5s6r6q4r5s6r6q5r6q6p3q4r5s6r6q
56q6p4q5r6q6p5q6p6o2p3q4r5s6r6q5r6q6p4q5r6p5q6p6o3p4q5r6q6p5q6p6o4p5q6p6o5p6o6dSSOMdWFISHcUE BOOK
fHEARTeBERRIESbOARcLD EIGHT SPOKED ASTERISKfFIVE SPOKED ASTERISKfGREEK CROSSfSALTIREgIX SPOKED AS
TERISKfWHITE CIRCLElSQUAREcMdBcNEcOKeMARKi TABSeSdMERANGcPOMOFO FINAL LETTER GwHwKwPwTjLETTER ArH
rIsNNrMrNsGsNrUsNNqBrUqCrHqDqErErHrIrNsGsNrRqFqGrHrNrUrWqHqIrHrMrNNtNrRrUqJrIqKrWqLrHqMqNrGsGrNqO
r WITH DOT ABOVErErMrNGsNrOrUqPqQqRqSrHqTqUrNNqVqXqZrHrIrYcTTLE WITH POPPING CORKeOM ARC ANTICLOC
KWISE ARROWhCURLY BRACKEThHALF BLACK CIRCLEmINTEGRALmLEFT PARENTHESISmRIGHT PARENTHESIShLEFT CORN
ERnROPmHALF BRACKEThPARENTHESIShRIGHT CORNERoROPnHALF BRACKEThSQUARE BRACKETv OVER TOP SQUARE BRA
CKEThTORTOISE SHELL BRACKETcUQUETh OF FLOWERScW AND ARROWdL OF HYGIEIAfWITH SPOONeINGdTIEg WITH L
EFT HALF BLACKmRIGHT HALF BLACKcX DRAWINGS DOUBLE DOWN AND HORIZONTALbdLEFTbdRIGHTuHORIZONTALuU
P AND HORIZONTALbbLEFTbbRIGHTuVERTICALbc AND HORIZONTALbhLEFTbhRIGHTpWN DOUBLE AND HORIZONTAL SIN
GLEbdLEFT SINGLEbdRIGHT SINGLEsHEAVY AND HORIZONTAL LIGHTbcLEFT LIGHTbhUP LIGHTbcRIGHT LIGHTbiU
P LIGHTbcUP HORIZONTAL LIGHTsLIGHT AND HORIZONTAL HEAVYbcLEFT HEAVYbhUP HEAVYbcRIGHT HEAVYbiUP HE
AVYbcUP HORIZONTAL HEAVYsSINGLE AND HORIZONTAL DOUBLEbdLEFT DOUBLEbdRIGHT DOUBLEnHEAVY DOUBLE DAS
H HORIZONTALbfVERTICALvWNx AND HORIZONTALbcLEFTbcRIGHTtHORIZONTALtLEFTx AND LIGHT RIGHTtQUADRUPL
E DASH HORIZONTALbiVERTICALtRIGHTtTRIPLE DASH HORIZONTALbfVERTICALtUPv AND HORIZONTALbaLEFTbbIGH
T DOWNbaRIGHTtVERTICALbb AND HORIZONTALbgLEFTbgRIGHTnLEFT DOWN HEAVY AND RIGHT UP LIGHTsHEAVY AN
D RIGHT DOWN LIGHTbiUP LIGHTbiVERTICAL LIGHTsLIGHT AND RIGHT DOWN HEAVYbiUP HEAVYbiVERTICAL HEAVY
sUP HEAVY AND RIGHT DOWN LIGHToIGHT ARC DOWN AND LEFTbgRIGHTxUP AND LEFTbeRIGHTtDIAGONAL CROSSbcD
IAMONDbcMIDDLE LEFT TO LOWER CENTREcd TO MIDDLE RIGHTbrUPPER CENTRE TO MIDDLE RIGHTct TO LOWER CE
NTREbjRIGHT TO LOWER CENTREbsUPPER CENTRE TO MIDDLE LEFT TO LOWER CENTREbcUPPER CENTRE TO MIDDL
E LEFTcd AND MIDDLE RIGHT TO LOWER CENTREceTO LOWER CENTREct TO MIDDLE RIGHTbzRIGHTce AND MIDDL
E LEFT TO LOWER CENTREcfTO LOWER CENTREcu TO MIDDLE LEFTbiLEFT TO LOWER RIGHTbiRIGHT TO LOWER LEF
TuOUBLE DASH HORIZONTALbfVERTICALvWNx AND HORIZONTALbcLEFTbcRIGHTtHORIZONTALbd WITH VERTICAL STRO
KEtLEFTx AND HEAVY RIGHTtQUADRUPLE DASH HORIZONTALbiVERTICALtRIGHTtTRIPLE DASH HORIZONTALbfVERTIC
ALtUPv AND HEAVY DOWNbbORIZONTALbaLEFTbaRIGHTtVERTICALbb AND HORIZONTALbgLEFTbgRIGHTnRIGHT DOWN H
EAVY AND LEFT UP LIGHTtHEAVY AND LEFT DOWN LIGHTbiUP LIGHTbiVERTICAL LIGHTtLIGHT AND LEFT DOWN HE
AVYbiUP HEAVYbiVERTICAL HEAVYtUP HEAVY AND LEFT DOWN LIGHTnUP DOUBLE AND HORIZONTAL SINGLEbbLEF
T SINGLEbbRIGHT SINGLEqHEAVY AND DOWN HORIZONTAL LIGHTbaHORIZONTAL LIGHTbaLEFT DOWN LIGHTbfLIGHTb
aRIGHT DOWN LIGHTbgLIGHTqLIGHT AND DOWN HORIZONTAL HEAVYbaHORIZONTAL HEAVYbaLEFT DOWN HEAVYbfHEAV
YbaRIGHT DOWN HEAVYbgHEAVYqSINGLE AND HORIZONTAL DOUBLEbbLEFT DOUBLEbbRIGHT DOUBLEnVERTICAL DOUBL
E AND HORIZONTAL SINGLEbhLEFT SINGLEbhRIGHT SINGLEwHEAVY AND HORIZONTAL LIGHTbgLEFT LIGHTbgRIGH
T LIGHTwLIGHT AND HORIZONTAL HEAVYbgLEFT HEAVYbgRIGHT HEAVYwSINGLE AND HORIZONTAL DOUBLEbhLEFT DO
UBLEbhRIGHT DOUBLEdING GLOVEcYdS SYMBOLbRAHMI DANDAiIGIT EIGHTnFIVEoOURnNINEnONEnSEVENoIXnTHREEoW
OnZEROiOUBLE DANDAhLETTER ApApIpUoBApHAoCApHAoDApDAqHApHAoEoGApHAoHAoIpIoJApHAoKApHAoLApLAoMAoNAp
GApNApYAoOpLD TAMIL LLAbaLAyNNNAyRRAySHORT EbeOoPApHAoRAoSApHApSAoTApHApTAqHAoUpUoVApOCALIC LxLwR
xRoYAhNUMBER EIGHTtYoFIFTYqVEpORTYqURoJOINERoNINEsTYoONEr HUNDREDsTHOUSANDoSEVENtTYpIXrTYoTENpHIR
TYqREEpWENTYqOhPUNCTUATION CRESCENT BARtDOTvUBLE DOTtLINEuOTUShSIGN ANUSVARAmCANDRABINDUmJIHVAMUL
IYAmOLD TAMIL VIRAMAmUPADHMANIYAmVISARGAhVIRAMAiOWEL SIGN AAtItUsBHATTIPROLU AAsEsItIsOtLD TAMI
L SHORT EbiOsUtUsVOCALIC LbbLbaRbbRdILLE PATTERN BLANKqDOTS-1w2x3y4z5ba6bb7bc8bb8ba7bb8ba8z6ba7bb
8ba8z7ba8z8y5z6ba7bb8ba8z7ba8z8y6z7ba8z8y7z8y8x4y5z6ba7bb8ba8z7ba8z8y6z7ba8z8y7z8y8x5y6z7ba8z8y7z
8y8x6y7z8y8x7y8x8w3x4y5z6ba7bb8ba8z7ba8z8y6z7ba8z8y7z8y8x5y6z7ba8z8y7z8y8x6y7z8y8x7y8x8w4x5y6z7ba
8z8y7z8y8x6y7z8y8x7y8x8w5x6y7z8y8x7y8x8w6x7y8x8w7x8w8v2w3x4y5z6ba7bb8ba8z7ba8z8y6z7ba8z8y7z8y8x5y
6z7ba8z8y7z8y8x6y7z8y8x7y8x8w4x5y6z7ba8z8y7z8y8x6y7z8y8x7y8x8w5x6y7z8y8x7y8x8w6x7y8x8w7x8w8v3w4x5
y6z7ba8z8y7z8y8x6y7z8y8x7y8x8w5x6y7z8y8x7y8x8w6x7y8x8w7x8w8v4w5x6y7z8y8x7y8x8w6x7y8x8w7x8w8v5w6x7
y8x8w7x8w8v6w7x8w8v7w8v8eNcEADeST-FEEDINGdVEcICKdDE WITH VEILeGE AT NIGHTdEFCASEfScOCCOLIdKEN CIR
CLE WITH NORTHWEST ARROWhHEARTdOMdWN HEARTbUBBLE TEAgScCKETcGdINESE END OF SECTIONjLETTER AqBAqCA
qDAqGAqHAqJAqKAqLAqMArPAqNArGAsKArRArYAsCAqPAqRAqSAqTAqVAqYAjPALLAWAjVOWEL SIGN AEuEuIuOuUcHID LE
TTER AnBAnDAnGAnHAnInKAnLAnMAnNAoGAnPAnRAnSAnTAnUnWAnYAgVOWEL SIGN IrUcILDING CONSTRUCTIONcLLET
g OPERATOReHORNi WITH SOUND WAVESeSEYEcRRITOcSd STOPdT IN SILHOUETTEeS IN SILHOUETTEcTTERgFLYbYT
E ORDER MARKcZANTINE MUSICAL SYMBOL AGOGI ARGIbiOTERIbfGORGIbjOTERIbfMESIbhTRIAbfPOLI ARGIbkGORGI
baNATRICHISMAbbTIKENOKYLISMAbhMAbaPESO EKFONITIKONbgXO NEObbLIbbODERMA ARCHAIONbiNEObcSTROFOI SYN
DESMOS NEObkTELOUS ICHIMATOSbiSbj DIPLIbkNEObcTHEMAbaRGONbdSYNTHETONbbKTIKO DIbhGAbhKEbhNIbhPAbhV
OUbhZOzCHAMILIbfONbbOREVMA ARCHAIONbiNEObbROA KLITONbfSPATHIbfZYGOSzDASEIAbaIARGONbcSTOLI APLI ME
GALIboIKRIbiDIPLIbiTHESEOSbbESIS APLI DYO DODEKATAbgDIGRAMMOS EX DODEKATAbgMONOGRAMMOS TESSERA DO
DEKATAbgTETARTIMORIONbhRIGRAMMOS OKTO DODEKATAbjTIMORIONbbFTOGGOS OUbbGORGONbh PARESTIGMENON ARIS
TERA ANOcfKATObwDEXIAbcRAMMA GGbbPLIbe ARCHAIONbaYOzEKSTREPTONbaLAFRONbaNARXIS KAI FTHORA VOUbbDO
FONONbaPEGERMAbaTERON ARGOSYNTHETONbgPARAKALESMAbaXO EKFONITIKONzFANEROSIS DIFONIASbjMONOFONIASbj
TETRAFONIASbaHTORA SKLIRON CHROMA VASISbaTHORA ARCHAIONbo DEYTEROU ICHOUbgDIATONIKI DIbqKEbqNANAb
rI ANObtKATObqPAbqZObgENARMONIOS ANTIFONIAbgI YFESIS TETARTIMORIONbgMALAKON CHROMA DIFONIASbvMONO
FONIASbgNAOS ICHOSbhENANObgSKLIRON CHROMA SYNAFIbvVASISboDIATONON DIzGENIKI DIESISbgYFESISbaORGO
N ARCHAIONbgNEO ANObkKATObgPARESTIGMENON ARISTERAbuDEXIAbeSYNTHETONbcTHMIKON N APLOUNbmDIPLOUNbaR
ONTHISMATAzICHADINbaMIDIARGONbcFONONbdTHORAbhONbaSAKIA TELOUS ICHIMATOSbbON ARCHAIONbeNEOzKATAV
A TROMIKONbfSMAbcHISTIbaENTIMA ARCHAIONbhNEO ANOblKATOblMESObgTAbi ARCHAIONbjNEO ANObnKATObnMESOb
aLASMAbf ANObgKATObaONTEVMAbh ALLObbRONISbbUFISMAbaRATIMA ALLObiRCHAIONbhNEObgTAbfOKOUFISMAbgYPOR
ROONbbEMASTIbaYLISMAzLEIMMA DYO CHRONONbgENOS CHRONOUbgIMISEOS CHRONOUbgTESSARON CHRONONbhRION CH
RONONbbMOIbaYGISMAzMARTYRIA ALLI DEYTEROS ICHOSbnPROTOS ICHOSbiDEYTEROS ICHOSbiLEGETOS ICHOSbiPLA
GIOS ICHOSbqTETARTOS ICHOSbjROTOS ICHOSbnVARYS ICHOSbiTETARTOS ICHOSbrLEGETOS ICHOSbjRIFONIASblTO
S ICHOSbiVARYS ICHOSbaIKRON ISONzNANAzOLIGON ARCHAIONbgNEObaMALONbaXEIA DIPLIbfEKFONITIKONbfNEObe
I ARCHAIONbaYRANISMA ARCHAIONbjNEOzPARAKALESMA ARCHAIONblNEObeLITIKIbk ARCHAIONblNEObcICHONbaELAS
TONbh NEObbRISPOMENIbbTASMAbeTIbfOKOUFISMAbaIASMA ARCHAIONbgNEObaSIFISTOLYGISMAbhNbi NEObhPARAKAL
ESMAbhSYNAGMAbcLIbdONzRAPISMAbaEVMAzSAXIMATAbaEISMAbf NEObaIMANSIS ARSEOSbo DISIMOUbpTETRASIMOUbq
RISIMOUbiTHESEOSbp DISIMOUbqTETRASIMOUbrRISIMOUbaTAVROSbg APODEXIAbbIGMAbbRAGGISMATAbaYNAGMA ARCH
AIONbhMETA STAVROUbhNEObcEVMAbbRMAbeTIKIzTELEIAbbSSERAbbTRAPLIbaHEMAbe APLOUNbeTISMOS ESObmXObc
S KAI APOTHESbbITAbaINAGMAbaRIAbcGORGONbcPLIbbOMIKOLYGISMAbgN ALLObjRCHAIONbiNEObgPARAKALESMAbhSI
FISTONbgSYNAGMAzVAREIA DIPLIbgEKFONITIKONbgNEObfI ARCHAIONbbTHYzXIRON KLASMAzYFEN ANObeKATObcSI
S APLI DYO DODEKATAbgDIGRAMMOS EX DODEKATAbgMONOGRAMMOS TESSERA DODEKATAbgTRIGRAMMOS OKTO DODEKAT
AbjTIMORIONbaPOKRISISbi DIPLIbcRROIbbSILI"),
  ('C', "
aCACTUScDA UNAdUCEUScLENDARdL ME HANDcMERAg WITH FLASHdPINGcNADIAN SYLLABICS AuAvIvYuIvVILIK BuNu
THAPASCAN MbeSuYtBEAVER DENE LbfRuIBLE-CREE YuLACKFOOT AbdEbdIbdKAbeEbeIbeObdNAbeEbeIbeObdObdSbdW
beAbeEbeIbeOtCuAvAwIvRRIER CHAbdEbeEbdIbdObdUbbDEEbdNE GEEbeTAL SbcIbcLAbdEbeEbdIbdObdUbcZAbdEbeE
bdIbdObdUbbEEbbGAbdAbcEbdEbcHAbdEbeEbdIbdObdUbcIbcObcUbcWAbdUbbHbcEEbcIbcWAbdEbeEbdIbdObdUbbIbcNI
TIAL ZbbJAbcEbdEbcIbcJAbdEbeEbdIbdObdUbcObcUbcWAbbKHAbdEbeEbdIbdObdUbcKbdAbdEbeEbdIbdObdUbbLAbcEb
dEbcHAbdEbeEbdIbdObdUbcIbcObcUbbMAbcEbdEbcIbcObcUbbNAbcEbdEbcGbcIbcObcUbbPbcAbcEbdEbcIbcObcUbbRAb
cEbdEbcIbcObcUbbSAbcEbdEbcHbdAbdEbeEbdIbdObdUbcIbcObcUbbTHAbdEbeEbdIbdObdUbcLAbdEbeEbdHAbeEbfEbeI
beObeUbdIbdObdUbcSAbdEbeEbdIbdObdUbcTAbdEbeEbdIbdObdSAbeEbfEbeIbeObeUbdUbbWAbcEbdEbcIbcObcUbbYAbc
EbdEbcIbcObcUbbZbcAbcEbdEbcIbcObcUuEuHI SIGNuIvIuOvOuWAwAvEvIwIvOwOtEuASTERN WuNtFuAvAwIuEuIvIvNA
L ACUTEzBOTTOM HALF RINGzDOUBLE ACUTEbgSHORT VERTICAL STROKESbbWN TACKzGRAVEzMIDDLE DOTzPLUSzRAIS
ED DOTbaIGHT HALF RINGbbNGzSHORT HORIZONTAL STROKEbaMALL RINGzTOP HALF RINGuOvOuULL STOPuWAAtGLOT
TAL STOPtHKuYPHENtIuIuNtKuAvAwIvYuEuIvIuOvOuWvAwAwYvEvIwIvOwOtLuAvAwIvYuEuHvAwAvIwIvOwOuIvIuOvOuW
AwAvEvIwIvOwOtMuAvAwIvYuEvDIAL LbaRuHuIvIuOvOwSE-CREE SKuWAwAvEvIwIvOwOtNu-CREE THEbcIbdIuAvAwIvS
KAPI CWAAbbKWAAbbMWAAbbNWAAbbS-WbcCWAbcKWbeAbcPWAbcTWAbcWAAbbTWAAbbWAAbcOObbYWAAvTTILIK HAbeAbdIb
eIbdObeObcSHRAbgAbfIbgIbfObgOvYuEuGvAwAxIwIvIwIvOwOuHuIvIuNGwAxAwIxIwOxOuOvOvYuUNAVIK HbcAbdAbcEb
cIbdIbcObdOyUT HuWAwAvEvIwIvOwOtOuJIBWAY CbbKbbMbbNbcWIbeIbdObeObbPbbSbcHbbTuNuOuYtPuAvAwIvYuEuIv
IuOvOvYuWAwAvEvIwIvOwOwYtQuAvAwIvIuIvIuOvOtRu-CREE REbbWEuAvAwIvYuEuIvIuOvOuWAwAvEEvIwIvOwOtSuAvA
wIvYwISI HAbbEbbIbbObcObaJIbbUbcUbaMbaSHAbcEbcIbcObdObcWEbaTHbaYIuEuHvAwAwYvEvIwIvOwOwYvWAxAwEwIx
IwOxOxYuIvIuOvOvUTH-SLAVEY KAHbhEHbhIHbhOHvYuPAvEvIvOuWvAwAvEvIwIvOwOtTuAvAwIvYuEuHv-CREE THbdAbe
AbdEbdIbeIbdObeOvAwAvEvIwIvOwOvWAxAwEuIvIuLHAwEwIwOxOwWEuOvOuTAvEvHwAxAwEwIwOxOwWEvIvOuWAwAvEvIwI
vOwOuYAvEvIvOtWAvAvYuEvST-CREE CWAbgAbfEbfIbgIbfObgObdFWAAbdKWAbgAbfEbfIbgIbfObgObdLbeAbfAbeEbeOb
fObeWAbgAbfEbfIbgIbfObgObdMbeWAbgAbfEbfIbgIbfObgObdNWAbgAbfEbdPbeWAbgAbfEbfIbgIbfObgObdRbeAbeEbeI
beObeWAAbdSHWAbhAbgEbgIbhIbgObhObeWAbgAbfEbfIbgIbfObgObdTHWAAbeWAbgAbfEbfIbgIbfObgObdWAbfAbeEbeIb
fIbeObfObdYbeWAbgAbfEbfIbgIbfObgOxERN WuIvIuOvOwDS-CREE FINAL THbeTHbgAbgEbgIbgObgWAbiAbhEEbhIbiI
bhObiOtYu-CREE COObaKOObaLOObaMOObaNOObaOObaPOObbWAAbaSOObaTOObaWbaYOOuAvAwIvYuEuIvIuOvOvYuWAwAvE
vIwIvOwOdCEL TAGgLATION XfRdDLEeYdNED FOODdOEcPITULUMdRICORNcR SLIDINGdD FILE BOXfINDEXk DIVIDERS
dE OFeTf INSERTION POINTdIAN LETTER Ap2oBoC-18q39oDp2oEp2oGp2oIpIoKp2oLpDq2oMpBq2q3q4oNpDpGpNoOoP
p2oQoRpRoSpHq2pSpTq2oTpTq2oUpUqUr2r3rUoXdONeUSEL HORSEdP STREAMEReENTRY SAWdROTcSTLEcTd FACEi WIT
H TEARS OF JOYoWRY SMILEcUCASIAN ALBANIAN CITATION MARKtLETTER ALTbbORbaBETbaCARbcYNbbHAbdTbcIbcO
YbbYAWbdYbaDATbbYANbbZAYbcYAYbaEBbbYNbaFAMbaGHEYSbbIMbaHEYTbaINYAbbRBbbWNbaJAYNbbHOXbaKARbbIWbaLA
NbbYITbaMAQbaNOWCbaONbaPENbbIWRbaQARbcYbaRATbaSEYKbbHAbdKbcOYbaTASbbIWRbbYAYbaVEYZbaXEYNbaYAYDbbO
WDbaZARLbbHAbcILdTION SIGNbEDI SIGNcLTIC CROSScNTRE LINE SYMBOLgLINE LOW LINElOVERLINEcRESbGJbHAI
NSeRdKMA AU MARKhDANDAiIGIT EIGHTnFIVEoOURnNINEnONEnSEVENoIXnTHREEoWOnZEROiOUBLE DANDAhLETTER AAo
BAApHAAoCAApHAAoDAApDAAqHAApHAAoEoGAApHAAoHAAoIoJAApHAAoKAApHAAoLAApHAAoMAAoNAApGAApNAApYAAoPAApH
AAoRAAoSAAoTAApHAApTAAqHAAoUoVAAoWAAoYAApYAAhMAAYYAAhO MARKhQUESTION MARKhSECTION MARKiIGN ANUSVA
RAmCANDRABINDUmVISARGAhVIRAMAiOWEL SIGN AtAtItUsEtIsItIsOtIsUtUdM CONSONANT SIGN FINAL HbaMbaNGuL
AuRAuWAuYAfDIGIT EIGHTlFIVEmOURlNINElONElSEVENmIXlTHREEmWOlZEROfLETTER AnImBAnBAnHAmCHAoHAmDAnDAn
HAmEmFINAL CHsGsKsLsNtGsPsRsSSsTsYmGAnHAmHAmImJAnHAmKAnHAmLAmMAnUEmNAnGAoUEnHAoJAoUEnUEmOmPAnHAnP
AmRAmSAnSAmTAnHAmUmVAmYAfPUNCTUATION DANDAsOUBLE DANDArSPIRALrTRIPLE DANDAfVOWEL SIGN AArIrUqEIqI
rIqOrEqUrEdRACTER TIEeT WITH DOWNWARDS TRENDlUPWARDS TRENDy AND YEN SIGNcECK MARKfER BOARDn FILLd
ERING MEGAPHONEeSE WEDGEdQUERED FLAGdROKEE LETTER AqDArErIrLArOrUrVqEqGArErIrOrUrVqHArErIrNArOrUr
VqIqKAqLArErIrOrUrVqMArErIrOrUrVqNAsHrErIrOrUrVqOqQUAsEsIsOsUsVqSrArErIrOrUrVqTArErIrLAsEsIsOsUsV
rSAsEsIsOsUsVqUqVqWArErIrOrUrVqYArErIrOrUrVjSMALL LETTER AwDAxExIxLAxOxUxVwEwGAxExIxOxUxVwHAxExIx
NAxOxUxVwIwKAwLAxExIxOxUxVwMAxExIxOxUxVwNAyHxExIxOxUxVwOwQUAyEyIyOyUyVwSxAxExIxOxUxVwTAxExIxLAyEy
IyOyUyVxSAyEyIyOyUyVwUwVwWAxExIxOxUxVwYAxExIxOxUxVeRIESfY BLOSSOMdSTNUTcI RHOdCKENdLDfREN CROSSIN
GdPMUNKdRONcOCOLATE BARdPSTICKSdRASMIAN LETTER ALEPHtYINsBETHsCURLED WAWsDALETHsGIMELsHEuTHsKAPHs
LAMEDHsMEMsNUNsPEsRESHsSAMEKHtHINtMALL ALEPHsTAWsWAWsYODHsZAYINlNUMBER FOURsONEv HUNDREDsTENtHREE
tWENTYuOcRISTMAS TREEcURCHbINEMAcRCLE DIVIDED BY HORIZONTAL BAR AND TOP HALF DIVIDED BY VERTICA
L BARhWITH ALL BUT UPPER LEFT QUADRANT BLACKmHORIZONTAL BARmLEFT HALF BLACKnOWER HALF BLACKmRIGH
T HALF BLACKmSMALL CIRCLE TO THE RIGHTnUPERIMPOSED XmTWO HORIZONTAL STROKES TO THE RIGHTmUPPER HA
LF BLACKsRIGHT QUADRANT BLACKmVERTICAL FILLgD ANTICLOCKWISE ARROWv-ROTATED DIVISION SIGNjSTERIS
K OPERATORiBOLD XjULLETiC WITH OVERLAID BACKSLASHjCjDjROSS FORMEEu WITH FOUR DOTSbaTWO DOTSoPOMME
EnING LANESiDASHjIGIT EIGHToFIVEpOURoNINEoONEoSEVENpIXoTHREEpWOoZEROkVISION SIGNsLASHjOLLAR SIG
N WITH OVERLAID BACKSLASHkT OPERATORiEQUALSiGREATER-THANiHANGUL CHIEUCHw AqIEUCu ApHIEUHu ApIEUNG
u AvUpKHIEUKHw AqIYEOKv ApMIEUMu ApNIEUNu ApPHIEUPHw AqIEUPu ApRIEULu ApSIOSt ApTHIEUTHw AqIKEUT
v AjEAVY WHITE RIGHTWARDS ARROWjORIZONTAL BAR WITH NOTCHjUMAN FIGUREiIDEOGRAPH ACCEPTtDVANTAGEtLL
IANCEtTTENTIONsCENTREtONGRATULATIONuPYuRRECTsEARTHtIGHTtNTERPRISEtXCELLENTsFEMALEtINANCIALuREuVEt
OURsHAVEtIGHsITEMsKINDERGARTENtOTOsLABORtEFTtOWsMALEtEDICINEuTALtOONsNAMEtIGHTuNEsONEsPRINTsQUEST
IONsRELIGIONuSOURCEvTtIGHTsSCHOOLtECRETuVENtIXtOCIETYtPECIALtTOCKuUDYtUITABLEuNuPERVISEsTENtHREEt
WOsWATERtOODjNFORMATION SOURCEjTALIC LATIN CAPITAL LETTER CbkRiKATAKANA ArErHAsEsIsOsUrIrKAsEsIsO
sUrMAsEsIsOsUrNAsEsIsOsUrOrRAsEsIsOsUrSAsEsIsOsUrTAsEsIsOsUrUrWAsEsIsOrYAsOsUjOREAN CHARACTER CHA
MKOzJUEUIiLATIN CAPITAL LETTER AbdBbdCbdDbdEbdFbdGbdHbdIbdJbdKbdLbdMbdNbdObdPbdQbdRbdSbdTbdUbdVbd
WbdXbdYbdZoSMALL LETTER AbbBbbCbbDbbEbbFbbGbbHbbIbbJbbKbbLbbMbbNbbObbPbbQbbRbbSbbTbbUbbVbbWbbXbbY
bbZjESS-THANiMINUSjULTIPLICATION SIGN WITH CIRCUMFLEX ACCENTiNUMBER EIGHTEENuY ON BLACK SQUAREqLE
VENpFIFTEENtYu ON BLACK SQUAREqORTYu EIGHTvFIVEwOURvNINEvON BLACK SQUARExEvSEVENwIXvTHREEwWOrURTE
ENpNINETEENpSEVENTEENvY ON BLACK SQUAREqIXTEENtY ON BLACK SQUAREpTENs ON BLACK SQUAREqHIRTEENuY
v EIGHTwFIVExOURwNINEwON BLACK SQUAREyEwSEVENxIXwTHREExWOqWELVEsNTYv EIGHTwFIVExOURwNINEwON BLAC
K SQUAREyEwSEVENxIXwTHREExWOiOPEN CENTRE EIGHT POINTED STARiPARALLELjERPENDICULARjLUSjOSTAL MARKi
REVERSE SOLIDUSjING OPERATORiSQUAREiTIMESjRIANGLEq DOWNiVERTICAL BARiWHITE BULLEToSTARjZiXiZERO W
ITH SLASHeULATION FUNCTIONfS TENTcTYSCAPEj AT DUSKbJK COMPATIBILITY IDEOGRAPH-2F800bg1bg2bg3bg4bg
5bg6bg7bg8bg9bgAbgBbgCbgDbgEbgFbf10bg1bg2bg3bg4bg5bg6bg7bg8bg9bgAbgBbgCbgDbgEbgFbf20bg1bg2bg3bg4b
g5bg6bg7bg8bg9bgAbgBbgCbgDbgEbgFbf30bg1bg2bg3bg4bg5bg6bg7bg8bg9bgAbgBbgCbgDbgEbgFbf40bg1bg2bg3bg4
bg5bg6bg7bg8bg9bgAbgBbgCbgDbgEbgFbf50bg1bg2bg3bg4bg5bg6bg7bg8bg9bgAbgBbgCbgDbgEbgFbf60bg1bg2bg3bg
4bg5bg6bg7bg8bg9bgAbgBbgCbgDbgEbgFbf70bg1bg2bg3bg4bg5bg6bg7bg8bg9bgAbgBbgCbgDbgEbgFbf80bg1bg2bg3b
g4bg5bg6bg7bg8bg9bgAbgBbgCbgDbgEbgFbf90bg1bg2bg3bg4bg5bg6bg7bg8bg9bgAbgBbgCbgDbgEbgFbfA0bg1bg2bg3
bg4bg5bg6bg7bg8bg9bgAbgBbgCbgDbgEbgFbfB0bg1bg2bg3bg4bg5bg6bg7bg8bg9bgAbgBbgCbgDbgEbgFbfC0bg1bg2bg
3bg4bg5bg6bg7bg8bg9bgAbgBbgCbgDbgEbgFbfD0bg1bg2bg3bg4bg5bg6bg7bg8bg9bgAbgBbgCbgDbgEbgFbfE0bg1bg2b
g3bg4bg5bg6bg7bg8bg9bgAbgBbgCbgDbgEbgFbfF0bg1bg2bg3bg4bg5bg6bg7bg8bg9bgAbgBbgCbgDbgEbgFbe900bg1bg
2bg3bg4bg5bg6bg7bg8bg9bgAbgBbgCbgDbgEbgFbf10bg1bg2bg3bg4bg5bg6bg7bg8bg9bgAbgBbgCbgDbgEbgFbf20bg1b
g2bg3bg4bg5bg6bg7bg8bg9bgAbgBbgCbgDbgEbgFbf30bg1bg2bg3bg4bg5bg6bg7bg8bg9bgAbgBbgCbgDbgEbgFbf40bg1
bg2bg3bg4bg5bg6bg7bg8bg9bgAbgBbgCbgDbgEbgFbf50bg1bg2bg3bg4bg5bg6bg7bg8bg9bgAbgBbgCbgDbgEbgFbf60bg
1bg2bg3bg4bg5bg6bg7bg8bg9bgAbgBbgCbgDbgEbgFbf70bg1bg2bg3bg4bg5bg6bg7bg8bg9bgAbgBbgCbgDbgEbgFbf80b
g1bg2bg3bg4bg5bg6bg7bg8bg9bgAbgBbgCbgDbgEbgFbf90bg1bg2bg3bg4bg5bg6bg7bg8bg9bgAbgBbgCbgDbgEbgFbfA0
bg1bg2bg3bg4bg5bg6bg7bg8bg9bgAbgBbgCbgDbgEbgFbfB0bg1bg2bg3bg4bg5bg6bg7bg8bg9bgAbgBbgCbgDbgEbgFbfC
0bg1bg2bg3bg4bg5bg6bg7bg8bg9bgAbgBbgCbgDbgEbgFbfD0bg1bg2bg3bg4bg5bg6bg7bg8bg9bgAbgBbgCbgDbgEbgFbf
E0bg1bg2bg3bg4bg5bg6bg7bg8bg9bgAbgBbgCbgDbgEbgFbfF0bg1bg2bg3bg4bg5bg6bg7bg8bg9bgAbgBbgCbgDbgEbgFb
eA00bg1bg2bg3bg4bg5bg6bg7bg8bg9bgAbgBbgCbgDbgEbgFbf10bg1bg2bg3bg4bg5bg6bg7bg8bg9bgAbgBbgCbgDbcF90
0bf1bf2bf3bf4bf5bf6bf7bf8bf9bfAbfBbfCbfDbfEbfFbe10bf1bf2bf3bf4bf5bf6bf7bf8bf9bfAbfBbfCbfDbfEbfFbe
20bf1bf2bf3bf4bf5bf6bf7bf8bf9bfAbfBbfCbfDbfEbfFbe30bf1bf2bf3bf4bf5bf6bf7bf8bf9bfAbfBbfCbfDbfEbfFb
e40bf1bf2bf3bf4bf5bf6bf7bf8bf9bfAbfBbfCbfDbfEbfFbe50bf1bf2bf3bf4bf5bf6bf7bf8bf9bfAbfBbfCbfDbfEbfF
be60bf1bf2bf3bf4bf5bf6bf7bf8bf9bfAbfBbfCbfDbfEbfFbe70bf1bf2bf3bf4bf5bf6bf7bf8bf9bfAbfBbfCbfDbfEbf
Fbe80bf1bf2bf3bf4bf5bf6bf7bf8bf9bfAbfBbfCbfDbfEbfFbe90bf1bf2bf3bf4bf5bf6bf7bf8bf9bfAbfBbfCbfDbfEb
fFbeA0bf1bf2bf3bf4bf5bf6bf7bf8bf9bfAbfBbfCbfDbfEbfFbeB0bf1bf2bf3bf4bf5bf6bf7bf8bf9bfAbfBbfCbfDbfE
bfFbeC0bf1bf2bf3bf4bf5bf6bf7bf8bf9bfAbfBbfCbfDbfEbfFbeD0bf1bf2bf3bf4bf5bf6bf7bf8bf9bfAbfBbfCbfDbf
EbfFbeE0bf1bf2bf3bf4bf5bf6bf7bf8bf9bfAbfBbfCbfDbfEbfFbeF0bf1bf2bf3bf4bf5bf6bf7bf8bf9bfAbfBbfCbfDb
fEbfFbdA00bf1bf2bf3bf4bf5bf6bf7bf8bf9bfAbfBbfCbfDbfEbfFbe10bf1bf2bf3bf4bf5bf6bf7bf8bf9bfAbfBbfCbf
DbfEbfFbe20bf1bf2bf3bf4bf5bf6bf7bf8bf9bfAbfBbfCbfDbfEbfFbe30bf1bf2bf3bf4bf5bf6bf7bf8bf9bfAbfBbfCb
fDbfEbfFbe40bf1bf2bf3bf4bf5bf6bf7bf8bf9bfAbfBbfCbfDbfEbfFbe50bf1bf2bf3bf4bf5bf6bf7bf8bf9bfAbfBbfC
bfDbfEbfFbe60bf1bf2bf3bf4bf5bf6bf7bf8bf9bfAbfBbfCbfDbe70bf1bf2bf3bf4bf5bf6bf7bf8bf9bfAbfBbfCbfDbf
EbfFbe80bf1bf2bf3bf4bf5bf6bf7bf8bf9bfAbfBbfCbfDbfEbfFbe90bf1bf2bf3bf4bf5bf6bf7bf8bf9bfAbfBbfCbfDb
fEbfFbeA0bf1bf2bf3bf4bf5bf6bf7bf8bf9bfAbfBbfCbfDbfEbfFbeB0bf1bf2bf3bf4bf5bf6bf7bf8bf9bfAbfBbfCbfD
bfEbfFbeC0bf1bf2bf3bf4bf5bf6bf7bf8bf9bfAbfBbfCbfDbfEbfFbeD0bf1bf2bf3bf4bf5bf6bf7bf8bf9eRADICAL BA
MBOOnLUEnOLT OF CLOTHoNEoXnRUSH ONEsTWOmC-SIMPLIFIED BIRDzCARTzDRAGONzEATbaVENzFISHbaLYbaROGzGATE
baOLDzHORSEzLEAFbaONGzSALTbaEEbaHELLbaILKbaPEECHzTANNED LEATHERbaOOTHbaURTLEzWINDnHOKEnITYoVILIAN
nLIFFoOTHESnOWmDEATHnIVINATIONnOGmEAT ONEqTHREErWOnWEnYEmFIREnOOTmGHOSTnRASS ONEsTHREEtWOmHANDnEA
DpRT ONEsTWOnORNmJ-SIMPLIFIED DRAGONzEVENzTOOTHbaURTLEnADEmKNIFE ONEsTWOmLAME FOURrONErTHREEsWOnO
NG ONErTWOmMEAToSHnOONoRTARoTHERoUND ONEsTWOmNET FOURqONEqTHREErWOmOLDmPAW ONEqTWOnERSONmRAINoMoP
nEPEATmSEALoCOND ONEtTHREEuWOnHEEPnILKoMPLIFIED HALF TREE TRUNKyORNxWALKyHEATxYELLOWnMALL ONEsTWO
nNAKEoOUT ONEsTWOnPIRIT ONEtTWOnUNmTABLEnHREADnIGERnURTLEmWALK ONErTWOoTER ONEsTWOnEST ONErTWOeST
ROKE BXGlDlHmGmPnWGmXWGmZnGnTnWoGnZoPoZpGlNlPmDmGmZlQlSmGmPmTmWnGnZmZnWGnZlTmNlWGlXGbLAMSHELL MOB
ILE PHONEdPPER BOARDfING HANDS SIGNdSSICAL BUILDINGcEAR SCREEN SYMBOLcINKING BEER MUGSjGLASSESdPB
OARDcOCK FACE EIGHT OCLOCKq-THIRTYmLEVEN OCLOCKr-THIRTYlFIVE OCLOCKp-THIRTYmOUR OCLOCKp-THIRTYlNI
NE OCLOCKp-THIRTYlONE OCLOCKo-THIRTYlSEVEN OCLOCKq-THIRTYmIX OCLOCKo-THIRTYlTEN OCLOCKo-THIRTYmHR
EE OCLOCKq-THIRTYmWELVE OCLOCKr-THIRTYnO OCLOCKo-THIRTYfWISE CLOSED CIRCLE ARROWlONTOUR INTEGRALk
DOWNWARDS AND UPWARDS OPEN CIRCLE ARROWSkGAPPED CIRCLE ARROWkINTEGRALkOPEN CIRCLE ARROWkRIGHT AN
D LEFT SEMICIRCLE ARROWSpWARDS AND LEFTWARDS OPEN CIRCLE ARROWScb WITH CIRCLED ONE OVERLAYkTOP SE
MICIRCLE ARROWlRIANGLE-HEADED OPEN CIRCLE ARROWdSE UPfD BOOKhINTERSECTION WITH SERIFShLOCK WITH K
EYhMAILBOX WITH LOWERED FLAGuRAISED FLAGhSUBSETn OR EQUAL TOjPERSETp OR EQUAL TOhUMBRELLAiNION WI
TH SERIFSy AND SMASH PRODUCTdUDf WITH LIGHTNINGlRAINlSNOWlTORNADOdWN FACEbOATcCKROACHeTAIL GLASSd
ONUTcFFINcINcLLISION SYMBOLdON EQUALSgSIGNcMBINING ACUTE ACCENTw BELOWqTONE MARKp-GRAVE-ACUTEqMAC
RONlLMOST EQUAL TO ABOVEbaBELOWlNNUITY SYMBOLmTICLOCKWISE ARROW ABOVEyRING OVERLAYlSTERISK ABOVEt
BELOWkBINDU BELOWlREVEp BELOWp-MACRONmIDGE ABOVErBELOWkCANDRABINDUmRONp BELOWlEDILLAlIRCUMFLEX AC
CENTbb BELOWlLOCKWISE ARROW ABOVEuRING OVERLAYlOMMA ABOVEv RIGHTqBELOWmNJOINING MACRONbb BELOWlYR
ILLIC DASIA PNEUMATAtHUNDRED MILLIONS SIGNbbTHOUSANDS SIGNtKAVYKAtLETTER AbaBEbbIG YUSbaCHEbaDEbb
JERVbaEFbbLbbMbbNbbRbbSbc-TEbaFITAbaGHEbaHAbcRD SIGNbaIbbEbbOTIFIED AbjBIG YUSbjEbaKAbaLITTLE YUS
baMONOGRAPH UKbaObbMEGAbaPEbaSHAbcCHAbbOFT SIGNbaTEbbSEbaUbbKRAINIAN IEbaVEbaYATbbERUbbIbbUbaZEbb
HEtMILLIONS SIGNtPALATALIZATIONvYEROKuOKRYTIEuSILI PNEUMATAtTEN MILLIONS SIGNuHOUSAND MILLIONS SI
GNuITLOy LEFT HALFzRIGHT HALFtVZMETkDELETION MARKmVANAGARI DIGIT EIGHTbbFIVEbcOURbbNINEbbONEbbSEV
ENbcIXbbTHREEbcWObbZEROvLETTER AbcKAbcNAbcPAbcRAbcUbcVIvSIGN AVAGRAHAlIAERESISt BELOWt-RINGlOT AB
OVEt LEFTuRIGHToBELOWt LEFTnTED ACUTE ACCENTrGRAVE ACCENTmUBLE ACUTE ACCENTrBREVEw BELOWrCIRCUMFL
EX ABOVErGRAVE ACCENTrINVERTED BREVEbf BELOWrLOW LINErMACRONx BELOWrOPEN MARK BELOWsVERLINErPAREN
THESES ABOVEsLUS SIGN ABOVEbbBELOWrRIGHTWARDS ARROW BELOWtNG BELOWrTILDEw LEFT HALFxRIGHT HALFrVE
RTICAL LINE ABOVEbfBELOWbaSTROKE OVERLAYqD CIRCUMFLEX ACCENTmWN TACK BELOWoWARDS ARROWkENCLOSIN
G CIRCLEba BACKSLASHuDIAMONDuKEYCAPuSCREENvQUAREuUPWARD POINTING TRIANGLElQUALS SIGN BELOWkFERMAT
AlOUR DOTS ABOVEkGLAGOLITIC LETTER AZUbcBIG YUSbdUKYbcCHRIVIbcDJERVIbdOBRObcFITAbdRITUbcGLAGOLIbc
HERUbcIbdNITIAL IZHEbdOTATED BIG YUSbkSMALL YUSbdZHEbcKAKObcLJUDIJEbcMYSLITEbcNASHIbcONUbcPOKOJIb
cRITSIbcSHAbeTAbdLOVObdMALL YUSbcTSIbdVRIDObcUKUbcVEDEbcYATIbdERIbfUbeSTUbdObdUbcZEMLJAbdHIVETElR
ANTHA DIGIT FIVEzOURyONEySIXyTHREEzWOyZEROsLETTER AzKAzNAzPAzVInPHEME JOINERnVE ACCENTw BELOWqTON
E MARKp-ACUTE-GRAVEqMACRONmEEK DIALYTIKA TONOSqKORONISqMUSICAL PENTASEMEyTETRASEMEzRISEMEqPERISPO
MENIqYPOGEGRAMMENIkHOMOTHETIC ABOVEmOK ABOVEmRNkINFINITYmVERTED BREVEy BELOWvIDGE BELOWtDOUBLE AR
CH ABOVEbfBELOWlS BELOWkKATAKANA-HIRAGANA SEMI-VOICED SOUND MARKbcVOICED SOUND MARKmVYKA ABOVE LE
FTxRIGHTkLATIN LETTER SMALL CAPITAL GblLblMblNblRqSMALL LETTER Abe WITH DIAERESISbeEbeLPHAbeObeVb
dBbeETAbdCbe CEDILLAbdDbdEbeSHbeTHbdFbeLATTENED OPEN A ABOVEbdGbdHbdIbeNSULAR DblGblRblTbdKbdLb
e WITH DOUBLE MIDDLE TILDEbeONG SbdMbdNbdObe WITH DIAERESISbkLIGHT CENTRALIZATION STROKEbdPbdRb
e BELOWbfROTUNDAbdSbeCHWAbdTbeURNED W BELOWbdUbe WITH DIAERESISbkLIGHT CENTRALIZATION STROKEbdVbd
Wbe BELOWbdXbdZlEFT ANGLE ABOVEvBELOWqRROW ABOVEvBELOWuHEAD ABOVEzBELOWpHALF RING ABOVEzBELOWrRPO
ON ABOVEpPARENTHESIS ABOVE LEFTbbBELOW LEFTpRIGHT ARROW ABOVEbbBELOWpTACK BELOWoWARDS ARROW OVERL
AYuHARPOON WITH BARB DOWNWARDSlIGATURE LEFT HALFbc BELOWtRIGHT HALFbd BELOWnHT CENTRALIZATION STR
OKE BELOWlONG DOUBLE SOLIDUS OVERLAYpSOLIDUS OVERLAYqTROKE OVERLAYpVERTICAL LINE OVERLAYmW LINEkM
ACRONq BELOWrLEFT HALFba BELOWrRIGHT HALFbb BELOWq-ACUTErBREVErGRAVElINUS SIGN BELOWkNOT TILDE AB
OVElUMBER SIGN ABOVEkOGONEKq ABOVElLD PERMIC LETTER ANbcDOIbcNENOEbcSIIbcZATAlPEN MARK BELOWlVERL
INEkPALATALIZED HOOK BELOWmRENTHESES ABOVEwBELOWwOVERLAYlLUS SIGN ABOVEuBELOWkRETROFLEX HOOK BELO
WmVERSE SOLIDUS OVERLAYrD COMMA ABOVElIGHT ARROW ABOVEwBELOWvHEAD ABOVEbbND DOWN ARROWHEAD BELOWb
eUP ARROWHEAD BELOWbaBELOWqHALF RING ABOVEbaBELOWsRPOON ABOVEqPARENTHESIS ABOVE RIGHTbcBELOW RIGH
TqTACK BELOWpWARDS HARPOON WITH BARB DOWNWARDSmNG ABOVEpBELOWpOVERLAYkSEAGULL BELOWlHORT SOLIDU
S OVERLAYrTROKE OVERLAYqVERTICAL LINE OVERLAYlNAKE BELOWlQUARE BELOWsRACKETS ABOVElTRONG CENTRALI
ZATION STROKE BELOWlUSPENSION MARKkTHREE DOTS ABOVElILDEp BELOWqLEFT HALF BELOWqOVERLAYqRIGHT HAL
F BELOWlRIPLE ACUTE ACCENTrDOTrUNDERDOTlURNED COMMA ABOVEkUP TACK ABOVEsBELOWmWARDS ARROW BELOWl
R ABOVElS ABOVEkVERTICAL LINE ABOVEyBELOWtTILDEkWIDE BRIDGE ABOVEpINVERTED BRIDGE BELOWmGGLY LIN
E BELOWkX ABOVEmBELOWl-X BELOWkZIGZAG ABOVErBELOWdETdMERCIAL MINUS SIGNdPASSeLEMENTeOSITION SYMBO
LeRESSIONcNFETTI BALLeOUNDED FACEeUSED FACEdGRUENT WITH DOT ABOVEdICAL TAPERdJUNCTIONdSTRUCTION S
IGNnWORKERdTAINS AS MEMBERmNORMAL SUBGROUPbb OR EQUAL TOjWITH LONG HORIZONTAL STROKEoOVERBARoVERT
ICAL BAR AT END OF HORIZONTAL STROKEeINUOUS UNDERLINE SYMBOLeOUR INTEGRALeROL KNOBSdVENIENCE STOR
EcOKED RICEeIEfNGcPTIC CAPITAL LETTER AKHMIMIC KHEIxLFAwBOHAIRIC KHEIwCROSSED SHEIyYPTOGRAMMIC EI
EbkGANGIAbkNIbkSHEIwDALDAxEIxIALECT-P ALEFbgHORIbgKAPAbgNIwEIEwFEIxIwGAMMAyNGIAwHATExORIwIAUDAwKA
PAxHEIyIxSIwL-SHAPED HAxAULAwMIwNIwOxLD COPTIC AINbhDJAbhESHbhGANGIAbhHAbjTbiEIbiORIbhOOUbhSHEIbj
IMAbaNUBIAN NGIbiYIbhSHIMAbhWAUxOUwPIxSIwROwSAMPIxHEIyIMAxIMAxOUwTAUxHETHEwUAwVIDAwZATAiOMBININ
G NI ABOVErSPIRITUS ASPERbaLENIShEPACT DIGIT EIGHTtFIVEuOURtNINEtONEtSEVENuIXtTHREEuWOnNUMBER EIG
HT HUNDREDzYuFIFTYwVE HUNDREDvORTYwUR HUNDREDuNINE HUNDREDyTYuONE HUNDREDuSEVEN HUNDREDzTYvIX HUN
DREDxTYuTENvHIRTYwREE HUNDREDvWENTYwO HUNDREDnTHOUSANDS MARKhFRACTION ONE HALFiULL STOPhMORPHOLOG
ICAL DIVIDERhOLD NUBIAN DIRECT QUESTION MARKsFULL STOPsINDIRECT QUESTION MARKsVERSE DIVIDERhSMAL
L LETTER AKHMIMIC KHEIvLFAuBOHAIRIC KHEIuCROSSED SHEIwYPTOGRAMMIC EIEbiGANGIAbiNIbiSHEIuDALDAvEIv
IALECT-P ALEFbeHORIbeKAPAbeNIuEIEuFEIvIuGAMMAwNGIAuHATEvORIuIAUDAuKAPAvHEIwIvSIuL-SHAPED HAvAULAu
MIuNIuOvLD COPTIC AINbfDJAbfESHbfGANGIAbfHAbhTbgEIbgORIbfOOUbfSHEIbhIMAyNUBIAN NGIbgYIbfSHIMAbfWA
UvOUuPIvSIuROuSAMPIvHEIwIMAvIMAvOUuTAUvHETHEuUAuVIDAuZATAiYMBOL KAIpHI ROoMI ROoPI ROoSHIMA SIMAp
TAUROSoTAU ROdYLEFT SYMBOLcRALdNISH VERSE DIVIDERdRESPONDS TOcUCH AND LAMPdNTERBOREhSINKfING RO
D TENS DIGIT EIGHTyFIVEzOURyNINEyONEySEVENzIXyTHREEzWOnUNIT DIGIT EIGHTyFIVEzOURyNINEyONEySEVENzI
XyTHREEzWOdPLE WITH HEARTcWd FACEbRABcEDIT CARDdSCENT MOONcICKETh BAT AND BALLcOCODILEdISSANTdS
S MARKgOF JERUSALEMjLORRAINEgPATTY WITH LEFT CROSSBARrRIGHT CROSSBARhOMMEEm WITH HALF-CIRCLE BELO
WfED FLAGSiNEGATIVE SQUARED LATIN CAPITAL LETTER PiSWORDSfING LANESdWNcUTCHdZEIRO SIGNcYING CAT F
ACEhFACEdSTAL BALLbUBE ROOTcCUMBERcNEIFORM NUMERIC SIGN EIGHT ASHbdDISHbdGESH2bdSHAR2bdUbe VARIAN
T FORMbdVARIANT FORM USSUbu3yLAMITE FIFTYbgORTYbfONE THIRDbfTWO THIRDSxFIVE ASHbf TENUbcBAN2bg VA
RIANT FORMbdURUbcDISHbcGESH2bgUbcSHAR2bgUbdIXTHS DISHbcUbd VARIANT FORMyOUR ASHbf TENUbcBAN2bg VA
RIANT FORMbdURUbcDISHbcGESH2bgUbcSHAR2bgUbcUbd VARIANT FORMbcVARIANT FORM LIMMUbu AbvBbu4xNIGIDAE
SHbdMINzNE ASHbcDISHbcGESH2bcSHAR2bcUbd VARIANT FORMbcVARIANT FORM ILIMMUbv Abv3bv4xOLD ASSYRIA
N ONE QUARTERboSIXTHyNE BAN2bcURUbbEIGHTH ASHbcSHE3bbGESH2bfUbbHALF GURbbQUARTER ASHbjGURbbSHARUb
bTHIRD DISHbhVARIANT FORM AxSEVEN ASHbdDISHbdGESH2bdSHAR2bdUbe VARIANT FORMbdVARIANT FORM IMIN Ab
vBbu3yHAR2 TIMES GAL PLUS DISHbsMINyIX ASHbe TENUbbDISHbbGESH2bbSHAR2bbUbc VARIANT FORMbbVARIAN
T FORM ASH9xTHREE ASHbg TENUbdBAN2beURUbh VARIANT FORMbdDISHbdGESH2bhUbdSHAR2bi VARIANT FORMbhUb
i VARIANT FORMbdVARIANT FORM ESH16bt21yWO ASHbe TENUbbBAN2bcURUbbESHE3bbGESH2bfUbbSHAR2bfUbbTHIRD
S DISHbiVARIANT FORM AkPUNCTUATION SIGN DIAGONAL COLONbkQUADCOLONbkTRICOLONbbOLD ASSYRIAN WORD DI
VIDERbbVERTICAL COLONkSIGN Aq TIMES AxBADxGAN2 TENUxHAxIGIxLAGAR GUNUxMUSHxSAGq2qBr GUNUsTIMES AS
H2yDUN3 GUNUyGALbaN2 TENUyHAyIGI GUNUzMINyLAGAByNUNbb TENUySHESHbaU2yU PLUS U PLUS Ur2s TIMES AzB
ALAGzGAN2 TENUzME PLUS ENzSHA3zTAK4qDr TIMES ESH2qKr TIMES ERIN2ySHITA PLUS GISHqLr TIMES ALyDIM2
yGISHyHAyKAD3zIySHEyUSHrANrEPHqMARt TIMES KUGbaSHEqNr OVER ANsPLUS NAGA OPPOSING AN PLUS NAGAbcSQ
UAREDsTHREE TIMESrSHEqPINqRADt TIMES KURrKABqSAL2rHs KABA TENUtOVER ASH OVER ASHbk CROSSING ASH O
VER ASH OVER ASHbcTUG2 OVER TUG2 TUG2 OVER TUG2 PAPtZIDA TENUs2sGABpBArDs TIMES DISH TENUrG3rHAR2
v TIMES AB2bcNIbcZArLs OVER BALsAGrRsA2qIr TIMES AyGARyIGI GUNUqUr CROSSING BUsOVER BU ABbaTIME
S NA2baUNrLUGu OVER BULUGrRs2pDAr TIMES TAK4rGs KISIM5 TIMES A PLUS MASHbhMARbgBALAGbhIbgGAbi PLU
S MASHbhIbiR2bhUDbgHAbgIRbi PLUS LUbgKAKbgLAbhUbi PLUS MASH2biMbgNEbgPAP PLUS PAPbgSIbgTAK4bgU2 P
LUS GIR2boMASHbhSHtTIMES KURs3rMrRsA3t4qIrBrMs TIMES IGIzSHEzU U Us2t TIMES UDrNs KASKAL U GUNU D
ISHrSHt PLUS SHUqUr GUNUsOVER DUsSHESHIGrBs TIMES ESH2zSHEs2rGs TIMES ANSHEbaSHbc AT LEFTzDINbaUN
zERIN2zGAbaIbbR2 GUNUbbSHzHAbaIzIGI GUNUzKASKALbaURbbSHU2bf PLUS KASKALzLAK-020bbMbc TIMES KURbaU
H PLUS GISHzMASHbaESbaIzNIzPIzSHEbaI GUNUsUDrHrNs3t GUNUy GUNUs4rR2pEq OVER E NUN OVER NUNrTIME
S PAPq2r TIMES A PLUS HA PLUS DAyGARyKURyMIyPAPySALzHEyUqDINqGIRqLqNr CROSSING ENsOPPOSING ENsSQU
AREDsTIMES GAN2bc TENUyMEqRENrIN2u XqSH2t CROSSING ESH2qZENt SHESHIG TIMES ASHbiHIbiIGI GUNUbiLAb
kLbiMEbkSbiSUuTIMES Abb PLUS LALbk TIMES LALbbNbaBADbaDUN3 GUNUbj GUNUbaGUDbaHAbc GUNUbaIGI GUNUb
aKASKALbg SQUAREDbbU3baLAbcL TIMES LALbbIbbUbaSHEbbUbaU2bbDpGAr GUNUr2s OVER GA2tTIMES A PLUS D
A PLUS HAbgHAbgIGIbaB2 TENU PLUS TABbaNbb PLUS KAK PLUS AbaSHbc2bd PLUS GALzBADbbHAR2bbR PLUS RAb
aURbc PLUS RAzDAbaIbbM GUNUbdTIMES SHEbaUBbbG TIMES IGI GUNUbjKASKALzELbb PLUS LAbaNbb TIMES GAN
2 TENUbaRENzGAbbN2 TENUbbRbc PLUS DIbiNEbaIbb4bc PLUS AbbR2 PLUS SUzHA PLUS AbhLU PLUS ESH2bbLb
c PLUS LAbaI PLUS LIbaUB2zIGI GUNUbaSH PLUS HU PLUS ASHzKAKbbSKALbaIDbc PLUS LALbaU3 PLUS ANbbSHU
2 PLUS KASKALzLAbbMbc TIMES KURbaUHzME PLUS ENbaIbaUSHzNEbb PLUS E2bhGIbaUNbc OVER NUNzPAzSALbbRb
aHEbc PLUS TURbbIDbcMbaUMzTAK4zUbaDbb PLUS DUzZIZ2rBAt CROSSING GABAuROTATED NINETY DEGREESrDs OV
ER GAD GAR OVER GARrLs GAD OVER GAD GAR OVER GARsAMrMrNs2t CROSSING GAN2uOVER GAN2uTENUrRs3rSHANq
E22rSHTINw TIMES KURbdUqIr CROSSING GIsTIMES EyUr4s CROSSING GI4tOVER GI4rDIMrGrR2t GUNUs3t TIME
S A PLUS IGIbaGAN2 TENUbaIGIbaLU PLUS IGIbaPArSALsHt CROSSING GISHuTENUvIMES BADbaGISH CROSSING G
ISHbaTAK4qUr CROSSING GUr2s GUNUtTIMES IGI GUNUzKAKbc TIMES IGI GUNUzNUNzSAL PLUS TUG2rDs OVER GU
D LUGALtPLUS GISH TIMES TAK4tTIMES A PLUS KURzKURrLrMs TIMES SHErRs7sUNtSHpHAr GUNUsTENUw GUNUrLq
Ir TIMES ASHbb OVER HI TIMES ASHbb2yBADyDISHyGADyKINyNUNySHEyUqUrB2t TIMES ANbaHALbaKASKALbaLISHb
aUDrL2rSHpIq AqBqDIMt OVER IDIM BURbeSQUAREDqGrIs DIBtGUNUtOVER IGI SHIR OVER SHIR UD OVER UDtRIq
Lr TIMES GAN2 TENUr2qMr CROSSING IMsOPPOSING IMsSQUAREDsTIMES TAK4rINqNqRqSHpKAr TIMES AzDba PLU
S KU3zNSHEzSH2bb3yBADbaLAGbaRzIzUyERIN2zSH2yGAbaLbaN2 TENUbaRbb PLUS SHA3 PLUS AzIbaR2baSHbc CROS
SING GISHbdPLUS SARzUbaDbaR7yHI TIMES ASH2yIGIzMyKAbaKzIbaDyLIzUbaMyMEba PLUS DUbgGIbgTEzIba PLU
S NUNUZyNEzUNyPAzIyRUySAbaRzHAbaEbaIDbaUbbLzIGzUHURyTARzUyUz U Uz2zDzMUM TIMES PAzRba2zSHyZIr2s C
ROSSING KA2rBrD2s3s4s5t OVER KAD5rKs TIMES IGI GUNUrLs CROSSING KALtTIMES BADrM2s4rP ELAMITErSKAL
v LAGAB TIMES U OVER LAGAB TIMES UwOVER KASKAL LAGAB TIMES U OVER LAGAB TIMES UqESH2qIr TIMES BAD
yUzDrDrNrSALsHsIM5v OVER KISIM5qUr OVER HI TIMES ASH2 KU OVER HI TIMES ASH2r3r4s VARIANT FORMr7rL
s GUNUrNrRs OPPOSING KURrSHU2qWU318pLArGABu SQUAREDvTIMES Abc PLUS DA PLUS HAbiGARbiLALbcLbcNbcS
H ZIDA TENUbbBADbcIbbDARbbENbbGAbdRbcIbcUDbe PLUS GUDbbHAbdLbcI TIMES NUNbbIGI GUNUbcMbd PLUS HAb
jLUbbKIbdNbcU3bdLbe PLUS HI PLUS AbbLAGABbcISHbcUbdLbbMEbd PLUS ENbcUSHbbNEbbSHE PLUS SUMbdITA PL
US GISH PLUS ERIN2brTENUbdU2bf PLUS SHU2bcUMbbTAGbdK4bcE PLUS A PLUS SU PLUS NAbbUbc PLUS AbiU PL
US Ubc2 PLUS ASHbcDbcSHbbZU OVER ZUtRu GUNUz OVER LAGAR GUNU SHEvTIMES SHEbe PLUS SUMrHSHUrK-003u
21v5u30u50v1u62u79 OVER LAK-079 GUNUu80v1 OVER LAK-081u92t130u42t210v9u20v5v8u38u65v6t343v7v8u83v
4u90t441v9w TIMES GUbdIGIbdPAP PLUS LU3bmPAP PLUS LU3bdU2 PLUS BAu50v7u70u83u90v2v3v5t550t608u17
w TIMES ASHbdBADbdDUN3 GUNU GUNUbdKU3bdLAbdTARbeEbdU2beDbeRUDAu36u48w TIMES DUBbdGAbdIGIbg GUNUbd
NIbdPAP PLUS PAP PLUS LU3bdSHESH PLUS KIbdUDbeRUDAt724u49rLs TIMES LALrMs TIMES KURbc PLUS RUqIrL
rMMU2rSHqUr TIMES BADr2s CROSSING LU2tGUNU TIMES ASHtOPPOSING LU2tSHESHIGba TIMES BADuQUAREDtTENU
uIMES ALzBADzDISHzESH2bd PLUS LALbeTENUzGAN2 TENUzHALbaI TIMES BADzIMzKAD2bc3bd PLUS ASHbaIzLA PL
US ASHbbGABzME PLUS ENzNEbaUzPAPbc PLUS PAP PLUS LU3zSHUbaI PLUS ASHbbK2 PLUS BUzTAK4baUG2r3rGAL
u OPPOSING LUGALwVER LUGALvSHESHIGrHrLrMs OVER LUMbb GAR OVER GARpMAr GUNUsTIMES TAK4r2rHrRrSHt2q
ErSsHqIr PLUS ZA7rNqUr OVER MUrGs GUNUrNSUBrRGU2rSHt CROSSING MUSHuOVER MUSHbd TIMES A PLUS NAbkG
AbkKAKuTIMES AbaKURbaZAt3u GUNUvTIMES Abc PLUS DIbbDIbbZApNAr2r4rGAt INVERTEDuOPPOSING NAGAuTIME
S SHU TENUtRrMs NUTILLUs2qEr SHESHIGsTIMES AyUDqIr TIMES Er2rMs TIMES GAN2 TENUbbR PLUS GAN2 TENU
rNs9sDA2v TIMES ANbdSHbf PLUS ASHbcBALbcDIM GUNUbcGIbeSHbdUDbeLbcHIbcKESH2bcLAK-050bcMASHbdE PLU
S GAN2 TENUbcNEbdUNbcPAP PLUS PAPbcSHEbf PLUS A ANbmSHbo PLUS ASHbcUbd PLUS Ubd2 PLUS ASHbdRUDAbd
SHrSAGqUr11t OVER NU11 BUR OVER BURuROTATED NINETY DEGREESuTENUrNs CROSSING NUNbf LAGAR OVER LAGA
RtLAGAR TIMES GARbfMASHbfSALbi OVER NUN LAGAR TIMES SALbfUSHtOVER NUNtTENUsUZu AB2 TIMES ASHGABbf
BIbfDUGbfGUDbfIGI GUNUbfKAD3bfLAbfNEbfSILA3bfU2vKISIM5 TIMES BIbk UpPArDrNrPqESH2u ASTERISKqIr CR
OSSING PIsTIMES AzByBIzUyEyIzByUz2rR2sIGu OPPOSING PIRIGvTIMES KALbbUDbbZApRArBqIqUpSArGs GUNUx T
IMES HAtNUTILLUtOVER SAGtTIMES AzDUbbBzENzHAzIGI GUNUzKAKbaURzLUMzMIzNUNzSALbaHE AT LEFTbbIDzTABb
bK4zU2baBbaMbaRbaSHrLs LAGAB TIMES ASH2rNGA2rRqHAs3t TIMES AbaBADbaGISHbaNEbaSHU2baTURbaUbb PLU
S As6t TENUsB6sR2rEs HUtOVER SHEbb GAD OVER GAD GAR OVER GARbcTAB OVER TAB GAR OVER GARtPLUS HUB2
yNAM2ySARsG9sNsSHu2uLAMrIDt TIMES AbaIMsMt TIMES AbaBALbbULUGbaDINbaGARbaIGIbd GUNUbaKUSHU2baLULb
aMUGbaSALsNIGsRt OVER SHIR BUR OVER BURuTENUsTArUs OVER INVERTED SHUs2t PLUS DUG TIMES NIzE2 TIME
S ANsBURqIr GUNUsTIMES TAK4rGs4t OVER SIG4 SHU2rK2rLA3qUr OVER SUrDs2rHURrMsASHrRs9pTAr ASTERISKs
GUNUsTIMES HIyMIrBs OVER TAB NI OVER NI DISH OVER DISHtSQUAREDrGs TIMES BIzGUDzSHEbbUzTUG2zUDrK4
t PLUS SAGrRqEr GUNUqIr TENUr2rLrRs OVER TIRbb GAD OVER GAD GAR OVER GARtTIMES TAK4qUrG2rKrMs TIM
ES GAN2 TENUzTHREE DISHrRs OVER TUR ZA OVER ZApUq GUDrOVER U PA OVER PA GAR OVER GARySUR OVER SUR
yU REVERSED OVER U REVERSEDrUs Uq2qBqDr GUNUsKUSHU2sSHESHIGz TIMES BADsTIMES BADyMIyU PLUS U PLU
S Ubn GUNUrUGqMr TIMES LAGAByMEba PLUS DAySHA3yUrBINrUMt TIMES KASKALbaPAqNr GUNUqRr CROSSING URs
SHESHIGr2s INVERTEDtTIMES A PLUS HAbgNAbaLzHAzNUNzU2bb PLUS ASHbhBIbaDr4rIs3rUs TIMES AbaSHGABzBA
RzDARA3baUNzGAbbLbbN2 TENUbbRbaUzHAzIGIbaMbaSHzKIzLAK-668baU3bbMzMINzPAzSHEbaIG4zTUzU PLUS GUDbaD
baRUDAsDAu TIMES UqSHs TIMES AzKUbbRzTAK4s2sUMXsXqTUKIqZ3s TIMES KASKALrUpZAr SQUARED TIMES KURsT
ENUr7rGrMXqE2qIr OVER ZIr3rBs KABA TENUrGrZ2qUr OVER ZU PLUS SARr5s TIMES AzTHREE DISH TENUrBURrM
cP ON BLACK SQUAREeWITH STRAWdCAKEdIDOcRLING STONEeY BRACKET EXTENSIONgLOGICAL ANDoORiOPdRENCY EX
CHANGEeY AND RICEdVED STEM PARAGRAPH SIGN ORNAMENTcSTARDeOMScT OF MEATbYCLONEcLINDRICITYcPRIOT SY
LLABLE ArErIrJAsOrKAsEsIsOsUrLAsEsIsOsUrMAsEsIsOsUrNAsEsIsOsUrOrPAsEsIsOsUrRAsEsIsOsUrSAsEsIsOsUr
TAsEsIsOsUrUrWAsEsIsOrXAsErZAsOeO-MINOAN SIGN CM001w2w4w5w6w7w8w9v10w1w2xBw3w5w7w9v21w3w4w5w6w7w8
w9v30w3w4w5w6w7w8w9v40w1w4w6w7w9v50w1w2w3w4w5w6w8w9v60w1w2w3w4w6w7w8w9v70w1w2w3w4w5xBw6w8w9v80w1w
2w3w4w5w6w7w8w9v90w1w2w4w5w6w7w8w9u100w1w2w3w4w5w7w8w9v10w2w4u301w2cRILLIC CAPITAL LETTER Az WIT
H BREVEbfDIAERESISzBKHASIAN CHEbl WITH DESCENDERbiDZEbiHAzLEUT KAyBARRED Obg WITH DIAERESISbaSHKI
R KAzEzIG YUSbaNOCULAR OzLENDED YUSzROAD OMEGAzYELORUSSIAN-UKRAINIAN IyCCHEzHEbb WITH DESCENDERbi
IAERESISbhVERTICAL STROKEzLOSED LITTLE YUSzROSSED OyDCHEzEzJEbbRVzOUBLE MONOCULAR ObfOzWEzZEbbLOb
aHEbaWEbaZEbbHEyEz WITH DIAERESISzFzLba WITH DESCENDERbgHOOKbgMIDDLE HOOKbgTAILzMba WITH TAILzNb
a WITH DESCENDERbgHOOKbgLEFT HOOKbgMIDDLE HOOKbgTAILzRba WITH TICKzSba WITH DESCENDERyFITAyGHEb
b WITH DESCENDERbhMIDDLE HOOKbhSTROKEbn AND HOOKbhUPTURNzJEyHAba WITH DESCENDERbgHOOKbgSTROKEbaR
D SIGNzWEyIz WITH DIAERESISbfGRAVEbfMACRONzEba WITH BREVEbgGRAVEzObaTAbbIFIED AbhBIG YUSbhCLOSE
D LITTLE YUSbhEbhLITTLE YUSbhYATzZHITSAbf WITH DOUBLE GRAVE ACCENTyJEyKAba WITH DESCENDERbgHOOKbg
STROKEbgVERTICAL STROKEzHAKASSIAN CHEzJEzOMI DEbeJEbeZJEbdLJEbdNJEbdSJEbdTJEbdZJEbaPPAzSIyLHAzITT
LE YUSzJEyMONOCULAR ObcGRAPH UKyNEUTRAL YERzJEyOz WITH DIAERESISzMEGAbd WITH TITLOzTyPEba WITH DE
SCENDERbgMIDDLE HOOKzSIyQAyREVERSED DZEbhTSEbhYUbhZEzHAzOUND OMEGAySCHWAbd WITH DIAERESISzEMISOF
T SIGNzHAbaCHAbaHAbc WITH DESCENDERbaORT Ibf WITH TAILbeUbaWEzOFT DEbdELbeMbdSIGNzTRAIGHT Ubi WIT
H STROKEyTCHEzEba WITH DESCENDERbgMIDDLE HOOKzSEbaHEbaSEbaWEzWEyUz WITH DIAERESISbgOUBLE ACUTEbfM
ACRONzKbaRAINIAN IEyVEyWEyYAbaEbaTzERUbc WITH BACK YERbiDIAERESISzIzNzUyZEba WITH DESCENDERbhIAER
ESISbaMLYAzHEbb WITH BREVEbhDESCENDERbiIAERESISbaWEsIGATURE A IEbaEN GHEbaTE TSEjKAVYKAjLETTER MU
LTIOCULAR OqPALOCHKAqSMALL CAPITAL ELjPAYEROKjSMALL LETTER Ax WITH BREVEbdDIAERESISxBKHASIAN CHEb
j WITH DESCENDERbgDZEbgHAxLEUT KAwBARRED Obe WITH DIAERESISySHKIR KAxExIG YUSyNOCULAR OxLENDED YU
SxROAD OMEGAxYELORUSSIAN-UKRAINIAN IwCCHExHEz WITH DESCENDERbgIAERESISbfVERTICAL STROKExLOSED LIT
TLE YUSxROSSED OwDCHExExJEzRVxOUBLE MONOCULAR ObdOxWExZEzLOyHEyWEyZEzHEwEx WITH DIAERESISxFxLy WI
TH DESCENDERbeHOOKbeMIDDLE HOOKbeTAILxMy WITH TAILxNy WITH DESCENDERbeHOOKbeLEFT HOOKbeMIDDLE HOO
KbeTAILxRy WITH TICKxSy WITH DESCENDERwFITAwGHEz WITH DESCENDERbfMIDDLE HOOKbfSTROKEbl AND HOOKbf
UPTURNxJEwHAy WITH DESCENDERbeHOOKbeSTROKEyRD SIGNxWEwIx WITH DIAERESISbdGRAVEbdMACRONxEy WITH BR
EVEbeGRAVExOyTAzIFIED AbfBIG YUSbfCLOSED LITTLE YUSbfEbfLITTLE YUSbfYATxZHITSAbd WITH DOUBLE GRAV
E ACCENTwJEwKAy WITH DESCENDERbeHOOKbeSTROKEbeVERTICAL STROKExHAKASSIAN CHExJExOMI DEbcJEbcZJEbbL
JEbbNJEbbSJEbbTJEbbZJEyPPAxSIwLHAxITTLE YUSxJExONG-LEGGED DEwMONOCULAR ObaGRAPH UKwNARROW OxEUTRA
L YERxJEwOx WITH DIAERESISxMEGAbb WITH TITLOxTwPALOCHKAxEy WITH DESCENDERbeMIDDLE HOOKxSIwQAwREVE
RSED DZEbfTSEbfYUbfZExHAxOUND OMEGAbbED VEwSCHWAbb WITH DIAERESISxEMISOFT SIGNxHAyCHAyHAba WITH D
ESCENDERyORT Ibd WITH TAILbcUyWExOFT DEbbELbcMbbSIGNxTRAIGHT Ubg WITH STROKEwTALL HARD SIGNbbTEbb
YATxCHExEy WITH DESCENDERbeMIDDLE HOOKxHREE-LEGGED TExSEyHEySEyWExWEwUx WITH DIAERESISbeOUBLE ACU
TEbdMACRONxKyRAINIAN IExNBLENDED UKwVEwWExIDE ESwYAyEyTxERUba WITH BACK YERbgDIAERESISxIxNxUwZE
y WITH DESCENDERbfIAERESISyMLYAxHEz WITH BREVEbfDESCENDERbgIAERESISyWEqIGATURE A IEyEN GHEyTE TSE
jTHOUSANDS SIGN"),
  ('D', "
aDAGGERg KNIFEhWITH LEFT GUARDmRIGHT GUARDcLET SYMBOLcNCERdGOcRK SHADEgUNGLASSEScSH SYMBOLfWITH L
EFT UPTURNeED LOW LINEhOVERLINEhTRIANGLE-HEADED RIGHTWARDS ARROWbEAF PERSONcCIDUOUS TREEeMAL EXPO
NENT SYMBOLiSEPARATOR KEY SYMBOLdREASE FONT SIZE SYMBOLcERcGREE CELSIUShFAHRENHEITcLIVERY TRUCKdT
A EQUAL TOcNTISTRY SYMBOL LIGHT DOWN AND HORIZONTALbq WITH CIRCLEbwTRIANGLEbwWAVExUP AND HORIZONT
ALbo WITH CIRCLEbuTRIANGLEbuWAVExVERTICAL AND BOTTOM LEFTbrRIGHTbkTOP LEFTboRIGHTbkWAVEbgWITH CIR
CLEblTRIANGLEcPARTMENT STOREcRELICT HOUSE BUILDINGcSCENDING NODEdERET CAPITAL LETTER AYxBEExCHEEx
DEExEFyLyMyNzGyRySzHyTHyWxGAYxHxJEExKAYxLONG AbdHbcEbcIbcObdOxOIyWxPEExSHORT AbeHbdEbdIbdObeOxTEE
yHEExVEExWUxYEExZEEyHEEiSMALL LETTER AYvBEEvCHEEvDEEvEFwLwMwNxGwRwSxHwTHwWvGAYvHvJEEvKAYvLONG Abb
HbaEbaIbaObbOvOIwWvPEEvSHORT AbcHbbEbbIbbObcOvTEEwHEEvVEEvWUvYEEvZEEwHEEfTg ISLANDdKTOP COMPUTERi
WINDOWcVANAGARI ABBREVIATION SIGNmCUTE ACCENTlCARETlDANDAmIGIT EIGHTrFIVEsOURrNINErONErSEVENsIXrT
HREEsWOrZEROmOUBLE DANDAlGAP FILLERmRAVE ACCENTlHEADSTROKElJAIN OMlLETTER AtAtItUtWtYsBAtBAtHAsCA
uNDRA AzEzOtHAsDAtDAuDAvHAuHAtHAsEsFAsGAtGAtHAuHAtLOTTAL STOPsHAtEAVY YAsItIsJAtHAtJAsKAtHAuHAsLA
tLAuLAsMAuRWARI DDAsNAtGAtNAuNAtYAsOtEtOEsPAtHAsQAsRAtHAtRAsSAtHAuORT AyEyOtSAsTAtHAtTAuHAsUtEtUu
EsVAtOCALIC LbbLbaRbbRsYAtYAsZAtHAlOMlSIGN ANUSVARArVAGRAHAqCANDRABINDUbb AVAGRAHAbcTHREEbdWObcVI
RAMAqDOUBLE CANDRABINDU VIRAMAqHIGH SPACING DOTqINVERTED CANDRABINDUqNUKTAqPUSHPIKAqSIDDHAMrPACIN
G CANDRABINDUqVIRAMAsSARGAmTRESS SIGN ANUDATTAxUDATTAlVOWEL SIGN AAxIxUxWxYwCANDRA EbdLONG EbdOwE
wIxIwOxExOEwPRISHTHAMATRA EwSHORT EbcOwUxExUyEwVOCALIC LbfLbeRbfRbIAMETER SIGNeOND OPERATORiSHAP
E WITH A DOT INSIDEiTARGETiWITH BOTTOM HALF BLACKnLEFT HALF BLACKnRIGHT HALF BLACKnTOP HALF BLACK
cE FACE-1j2j3j4j5j6dSEL LOCOMOTIVEcFFERENCE BETWEENcGIT EIGHT COMMAmFULL STOPgFIVE COMMAlFULL STO
PhOUR COMMAlFULL STOPgNINE COMMAlFULL STOPgONE COMMAkFULL STOPgSEVEN COMMAmFULL STOPhIX COMMAkFUL
L STOPgTHREE COMMAmFULL STOPhWO COMMAkFULL STOPgZERO COMMAlFULL STOPdRAM FOR EARTHqLY HEAVENuUMAN
lGREATER YANGuINlHEAVENLY EARTHmUMAN EARTHlLESSER YANGtINcMENSION ORIGINcNGBAT CIRCLED SANS-SERI
F DIGIT EIGHTbhFIVEbiOURbhNINEbhONEbhSEVENbiIXbhTHREEbiWObhZERObbNUMBER TENiNEGATIVE CIRCLED DIGI
T EIGHTbfFIVEbgOURbfNINEbfONEbfSEVENbgIXbfTHREEbgWOzNUMBER TENzSANS-SERIF DIGIT EIGHTbqFIVEbrOURb
qNINEbqONEbqSEVENbrIXbqTHREEbrWObqZERObkNUMBER TENcRECT CURRENT SYMBOL FORM TWOhHITcSABLED CARePP
OINTED BUT RELIEVED FACEnFACEdCONTINUOUS UNDERLINE SYMBOLdGUISED FACEcTTO MARKcVES AKURU DIGIT EI
GHTsFIVEtOURsNINEsONEsSEVENtIXsTHREEtWOsZEROnOUBLE DANDAmEND OF TEXT MARKmGAP FILLERmINITIAL RAmL
ETTER AuAtBAuHAtCAuHAtDAuDAvHAuHAtEtGAuHAtHAtIuItJAtKAuHAtLAuLAtMAtNAuGAuNAuYAtOtPAuHAtRAtSAuHAuS
AtTAuHAuTAtUuUtVAtYAuYAtZAmMEDIAL RAtYAmPREFIXED NASAL SIGNmSIGN ANUSVARArCANDRABINDUrHALANTArNUK
TAmVIRAMAnOWEL SIGN AAyIxExIyIxOxUyUdIDESeNG MASKeSION SLASHjTIMESdORCE SYMBOLcYA LAMPcZZY FACEgS
YMBOLbNA DOUBLE HELIXbO NOT LITTER SYMBOLcCUMENTi WITH PICTUREoTEXTs AND PICTUREcDOcES NOT CONTAI
N AS MEMBERuNORMAL SUBGROUPbj OR EQUALjDIVIDEp WITH REVERSED NEGATION SLASHjFORCEjPRECEDEq OR EQU
ALlOVEjSUCCEEDq OR EQUALcGd FACEdRA ABBREVIATION SIGNgLETTER AoAoIoUnBAoHAnCAoHAnDAoDApHAoHAnEnGA
oHAnHAnIoInJAoHAnKAoHAnLAnMAnNAoGAoNAoYAnOnPAoHAnRAoRAnSAoHAoSAnTAoHAoTApHAnUoUnVAnYAgSIGN ANUSVA
RAlNUKTAlVIRAMAnSARGAgVOWEL SIGN AAsIsUrErIsIrOrUsUrVOCALIC RbaRcLPHINcMINO TILE HORIZONTAL BACKw
-00-00bb1bb2bb3bb4bb5bb6y1-00bb1bb2bb3bb4bb5bb6y2-00bb1bb2bb3bb4bb5bb6y3-00bb1bb2bb3bb4bb5bb6y4-0
0bb1bb2bb3bb4bb5bb6y5-00bb1bb2bb3bb4bb5bb6y6-00bb1bb2bb3bb4bb5bb6mVERTICAL BACKu-00-00z1z2z3z4z5z
6w1-00z1z2z3z4z5z6w2-00z1z2z3z4z5z6w3-00z1z2z3z4z5z6w4-00z1z2z3z4z5z6w5-00z1z2z3z4z5z6w6-00z1z2z3
z4z5z6cNG SIGNcORcT ABOVEeMINUSeOPERATORePLUSdTED CIRCLEiROSShFENCEhLINE FACEhOBELOShRIGHT-POINTI
NG ANGLEhSOLIDUSiQUAREhTRANSPOSITION MARKERcUBLE ACUTE ACCENThCIRCLED DIGIT EIGHTvFIVEwOURvNINEvO
NEvSEVENwIXvTHREEwWOpNUMBER TENiOLON EQUALiURLY LOOPhDAGGERiOWN TACKhEXCLAMATION MARKhHIGH-REVERS
ED-9 QUOTATION MARKiYPHENhINTEGRALlRSECTIONhLEFT ARC GREATER-THAN BRACKETiOGICAL ANDpORjW LINEk
-9 QUOTATION MARKlREVERSED-9 QUOTATION MARKhNESTED GREATER-THANoLESS-THANx WITH UNDERBARhOBLIQU
E HYPHENhPLUSiRECEDESjIMEm QUOTATION MARKhQUESTION MARKhRIGHT ARC LESS-THAN BRACKEThSOLIDUS OPERA
TORiQUARE INTERSECTIONoUNIONiTACKED COMMAjROKE NOT SIGNiUBSETjCCEEDSjPERSETjSPENSION MARKhUNIONi
P TACKhVERTICAL BARt DOUBLE LEFT TURNSTILEbbRIGHT TURNSTILEuLEFT TURNSTILEqLINEhWAVY OVERLINEg-EN
DED MULTIMAPhLINE EQUAL TO OR GREATER-THANyLESS-THANmSLANTED EQUAL TO OR GREATER-THANbgLESS-THANu
GREATER-THAN OR EQUAL TOuLESS-THAN OR EQUAL TOhSTRUCK CAPITAL CwGAMMAwHwNwPxIwQwRwZoITALIC CAPITA
L DvSMALL DbbEbbIbbJoN-ARY SUMMATIONoSMALL GAMMAuPIgD FEMALE SIGNiMALE SIGNiSYMBOLdGHNUTcVE OF PE
ACEcWN ARROWHEADfFISH TAILfRIGHT DIAGONAL ELLIPSISfTACKj WITH CIRCLE BELOWe-POINTING RED TRIANGLE
oSMALL RED TRIANGLEoTRIANGLE WITH LEFT HALF BLACKbcRIGHT HALF BLACKeWARD FACING HOOKu WITH DOTqNO
TCHED HOOKbc WITH DOTiS ANCORAlRROWp AND RIGHT ONE EIGHTH BLOCKqFROM BARqLEFTWARDS OF UPWARDS ARR
OWqTO BARqWITH CORNER LEFTWARDSvDOUBLE STROKEvEQUILATERAL ARROWHEADvHORIZONTAL STROKEvLARGE TRIAN
GLE ARROWHEADvMEDIUM TRIANGLE ARROWHEADvNOTCHED TAILvSMALL EQUILATERAL ARROWHEADbbTRIANGLE ARROWH
EADvTIP LEFTWARDSzRIGHTWARDSkBLACK ARROWqCIRCLED WHITE ARROWkCOMPRESSED ARROWkDASHED ARROWlOUBL
E ARROWkFINGER-POST ARROWkHARPOON WITH BARB LEFT BESIDE DOWNWARDS HARPOON WITH BARB RIGHTboUPWARD
S HARPOON WITH BARB RIGHTbhFROM BARbhTO BARbgWARDSbcRIGHT FROM BARbiTO BARbhWARDSlEAVY ARROWqCOMP
RESSED ARROWkPAIRED ARROWSkQUADRUPLE ARROWkROCKETkSANS-SERIF ARROWlQUARED ARROWkTRIANGLE ARROWHEA
Ds-HEADED ARROWbf LEFTWARDS OF UPWARDS TRIANGLE-HEADED ARROWbgTO BARbgWITH BOLD SHAFTblDOUBLE HOR
IZONTAL STROKEblHEAVY SHAFTblLONG TIP LEFTWARDSbuRIGHTWARDSblMEDIUM SHAFTblNARROW SHAFTblVERY HEA
VY SHAFTbaDASHED ARROWbaPAIRED ARROWSbaZIGZAG ARROWnPLE ARROWlWO HEADED ARROWn-HEADED ARROW WIT
H TRIANGLE ARROWHEADSkWHITE ARROWv WITHIN TRIANGLE ARROWHEADkZIGZAG ARROWbRACHMA SIGNdFTING POIN
T RIGHTWARDS ARROWdGONg FACEcESScIVE SLOW SIGNcOMEDARY CAMELdOLING FACEdP OF BLOODeLETcUM WITH DR
UMSTICKSbUCKcMPLINGcPLOYAN AFFIX ATTACHED E HOOKyI HOOKyLEFT-TO-RIGHT SECANTySECANTyTAILbaNGENTb
f HOOKpHIGH ACUTEuCIRCLEuDOTuGRAVEuLINEvONG GRAVEuTIGHT ACUTEuVERTICALbc SECANTuWAVEpLEFT HORIZON
TAL SECANTqOW ACUTEuRROWtCIRCLEtDOTtGRAVEtLINEuONG GRAVEtTIGHT ACUTEtVERTICALbb SECANTtWAVEpMID H
ORIZONTAL SECANTtVERTICAL SECANTpRIGHT HORIZONTAL SECANTjDOUBLE MARKjLETTER ArOUqBqDr SrHqErErUqF
r NqGr R SqHrLqIrEqJr Mt SsNt SsSt WITH DOTsWITH DOTbaS INSIDE AND ABOVEqKr MsR SrKqLrHrONG IvUqM
r Nt SsSsWITH DOTqNr Mt SsSsWITH DOTrASAL AwIwOwUqOrArOHrUrWqPr NrERNIN AMyNqRr SrHrOMANIAN IzUqS
r Jt SsKt RsMsNsPt RsSsTt RsWITH DOTba BELOWrHORT IrLOAN ANwDHwEExHxNwJwONxWwUqTr R SsSrHqUr NrHr
IqVrOCALIC MqWr RrArEIrHrIrOsWqXrWqYEjPUNCTUATION CHINOOK FULL STOPjSIGN O WITH CROSSjTHICK LETTE
R SELECTORbVD"),
  ('E', "
aE-MAIL SYMBOLbAGLEcRd OF MAIZEhRICEeWITH HEARING AIDdTHf GLOBE AMERICASnSIA-AUSTRALIAmEUROPE-AFR
ICAhROUNDcST SYRIAC CROSSbDITORIAL CORONISbGGcYPTIAN HIEROGLYPH A001x2x3x4x5yAx6yAyBx7x8x9w10x1x2
x3x4yAx5x6x7yAx8x9w20x1x2x3x4x5x6x7x8x9w30x1x2yAx3x4x5x6x7x8x9w40yAx1x2yAx3yAx4x5yAx6x7x8x9w50x1x
2x3x4x5x6x7x8x9w60x1x2x3x4x5x6x7x8x9w70vA001y2y3y4y5y6y7zAzBy8y9x10y1y2y3y4y5y6y7y8y9x20y1y2y3y4y
5y6y7y8y9x30y1y2uB001x2x3x4x5yAx6x7x8x9vEGIN SEGMENTuC001x2yAyByCx3x4x5x6x7x8x9w10yAx1x2x3x4x5x6x
7x8x9w20x1x2x3x4uD001x2x3x4x5x6x7x8yAx9w10x1x2x3x4x5x6x7x8x9w20x1x2x3x4x5x6x7yAx8x9w30x1yAx2x3x4y
Ax5x6x7x8x9w40x1x2x3x4x5x6yAx7x8yAx9w50yAyByCyDyEyFyGyHyIx1x2yAx3x4yAx5x6x7x8x9w60x1x2x3x4x5x6x7y
AyByCyDyEyFyGyHuE001x2x3x4x5x6x7x8yAx9yAw10x1x2x3x4x5x6yAx7yAx8x9w20yAx1x2x3x4x5x6x7x8yAx9w30x1x2
x3x4yAx6x7x8vND SEGMENTuF001yAx2x3x4x5x6x7x8x9w10x1x2x3yAx4x5x6x7x8x9w20x1yAx2x3x4x5x6x7x8x9w30x1
yAx2x3x4x5x6x7yAx8yAx9w40x1x2x3x4x5yAx6yAx7yAx8x9w50x1yAyByCx2x3uG001x2x3x4x5x6yAx7yAyBx8x9w10x1y
Ax2x3x4x5x6x7x8x9w20yAx1x2x3x4x5x6yAx7x8x9w30x1x2x3x4x5x6yAx7yAx8x9w40x1x2x3yAx4x5yAx6x7x8x9w50x1
x2x3x4uH001x2x3x4x5x6yAx7x8vORIZONTAL JOINERuI001x2x3x4x5yAx6x7x8x9yAw10yAx1yAx2x3x4x5vNSERT AT B
OTTOM ENDblSTARTbeTOP ENDbiSTARTuK001x2x3x4x5x6x7x8uL001x2yAx3x4x5x6yAx7x8uM001yAyBx2x3yAx4x5x6x7
x8x9w10yAx1x2yAyByCyDyEyFyGyHx3x4x5yAx6yAx7yAx8x9w20x1x2yAx3x4yAx5x6x7x8yAx9w30x1yAx2x3yAyBx4x5x6
x7x8x9w40yAx1x2x3x4uN001x2x3x4x5x6x7x8x9w10x1x2x3x4x5x6x7x8yAyBx9w20x1x2x3x4x5yAx6x7x8x9w30x1x2x3
yAx4yAx5yAx6x7yAx8x9w40x1x2vL001y2y3y4y5zAy6y7y8y9x10y1y2y3y4y5y6y7zAy8y9x20vU001y2y3y4y5y6y7y8y9
x10zAy1zAy2y3y4y5y6y7y8zAy9x20y1y2zAuO001yAx2x3x4x5yAx6yAyByCyDyEyFx7x8x9w10yAyByCx1x2x3x4x5x6x7x
8x9yAw20yAx1x2x3x4yAx5yAx6x7x8x9yAw30yAx1x2x3yAx4x5x6yAyByCyDx7x8x9w40x1x2x3x4x5x6x7x8x9w50yAyBx1
vVERLAY MIDDLEuP001yAx2x3yAx4x5x6x7x8x9w10x1uQ001x2x3x4x5x6x7uR001x2yAx3yAyBx4x5x6x7x8x9w10yAx1x2
x3x4x5x6yAx7x8x9w20x1x2x3x4x5x6x7x8x9uS001x2yAx3x4x5x6yAx7x8x9w10x1x2x3x4yAyBx5x6x7yAx8x9w20x1x2x
3x4x5x6yAyBx7x8x9w30x1x2x3x4x5yAx6x7x8x9w40x1x2x3x4x5x6uT001x2x3yAx4x5x6x7yAx8yAx9yAw10x1yAx2x3x4
x5x6yAx7x8x9w20x1x2x3x4x5x6x7x8x9w30x1x2yAx3yAx4x5x6uU001x2x3x4x5x6yAyBx7x8x9w10x1x2x3x4x5x6x7x8x
9w20x1x2x3yAx4x5x6x7x8x9yAw30x1x2yAx3x4x5x6x7x8x9w40x1x2uV001yAyByCyDyEyFyGyHyIx2yAx3x4x5x6x7yAyB
x8x9w10x1yAyByCx2yAyBx3x4x5x6x7x8x9w20yAyByCyDyEyFyGyHyIyJyKyLx1x2x3yAx4x5x6x7x8yAx9yAw30yAx1yAx2
x3yAx4x5x6x7yAx8x9w40yAvERTICAL JOINERuW001x2x3yAx4x5x6x7x8x9yAw10yAx1x2x3x4yAx5x6x7yAx8yAx9w20x1
x2x3x4yAx5uX001x2x3x4yAyBx5x6yAx7x8yAuY001yAx2x3x4x5x6x7x8uZ001x2yAyByCyDx3yAyBx4yAx5yAx6x7x8x9w1
0x1x2x3x4x5yAyByCyDyEyFyGyHyIx6yAyByCyDyEyFyGyHbIGHT PETALLED OUTLINED BLACK FLORETTEhOINTED BLAC
K STARoPINWHEEL STARoRECTILINEAR BLACK STARgSPOKED ASTERISKgTEARDROP-SPOKED PROPELLER ASTERISKf
H NOTEbJECT SYMBOLbLBASAN LETTER ApBEpCEqHEpDEqHEpEqIpFEpGEqHAMMArEqJEpHEpIpJEpKEqHEpLEqLEpMEpNAq
DEqEqJEpOpPEpQEpREqREpSEqHEpTEqHEpUpVEpXEpYpZEqHEcECTRIC ARROWjLIGHT BULBjPLUGjTORCHiAL INTERSECT
IONdMENT OFk OPENING DOWNWARDStUPWARDSlWITH DOT ABOVEqLONG HORIZONTAL STROKEqOVERBARqTWO HORIZONT
AL STROKESqUNDERBARqVERTICAL BAR AT END OF HORIZONTAL STROKEdPHANTdVATORcFcYMAIC LETTER ALEPHqYIN
pBETHpDALETHpGIMELpHErTHpKAPHpLAMEDHpMEMpNUNpPEpQOPHpRESHpSADHErMEKHqHINpTAWqETHpWAWpYODHpZAYINjI
GATURE ZAYIN-YODHbM DASHdQUADdSPACEcOJI COMPONENT BALDqCURLY HAIRqRED HAIRqWHITE HAIRgMODIFIER FI
TZPATRICK TYPE-1-2bg3bg4bg5bg6cPHASIS SYMBOLdTY DOCUMENTgNESThOTEk PADnGEgPAGEkSgSETj WITH LEFT A
RROW ABOVEpOVERBARpRIGHT ARROW ABOVEpSMALL CIRCLE ABOVEbN DASHdQUADdSPACEcD OF PROOFeWITH LEFTWAR
DS ARROW ABOVEcTER SYMBOLcVELOPEi WITH DOWNWARDS ARROW ABOVEoLIGHTNINGbQUAL AND PARALLEL TOgTO B
Y DEFINITIONjOR GREATER-THANmLESS-THANmPRECEDESmSUCCEEDSfS COLONhSIGN ABOVE LEFTWARDS ARROWsPLU
S SIGNsRIGHTWARDS ARROWsTILDE OPERATORnND SLANTED PARALLELbg WITH TILDE ABOVEmWITH BUMPY ABOVErDO
T BELOWrINFINITY BELOWrTWO DOTS ABOVE AND TWO DOTS BELOWhWITH ASTERISKdIANGULAR TOeVALENT TOlWIT
H FOUR DOTS ABOVEbRASE TO THE LEFTnRIGHTcIS FORM ONEkTWOcROR-BARRED BLACK CIRCLEtDIAMONDtSQUAREnW
HITE CIRCLEtDIAMONDtSQUAREbSTIMATED SYMBOLiSbTHIOPIC COLONlMBINING GEMINATION AND VOWEL LENGTH MA
RKbeMARKtVOWEL LENGTH MARKmMAjDIGIT EIGHTpFIVEqOURpNINEpONEpSEVENqIXpTHREEqWOjFULL STOPjNUMBER EI
GHTYqFIFTYrORTYqHUNDREDqNINETYqSEVENTYrIXTYqTENt THOUSANDrHIRTYrWENTYjPARAGRAPH SEPARATORkREFAC
E COLONjQUESTION MARKjSECTION MARKlMICOLONkYLLABLE BAuAtBAvAuEvEuIuOuUtEuEtItOuAtUtWAuEvEuIsCAuAt
CAvAuEvEuHAwAvEwEvHAxAwExEwIwOwUvIvOvUuIuOuUtEuEtHAvAuEvEuIuOvAuUuWAtItOuAtUtWAsDAuAtDAvAuEvEuHAA
vEwEvIvOvUuIuOvAuUuWAtEuEtItOuAtUtWAtZAAuEvEuIuOuUsFAuAtEuEtItOtUtWAuEvEuItYAsGAuAtEuEtGAvAuEvEuI
uOuUuWAwAvEwEvItItLOTTAL AbbAbaEbbEbaIbaObbAbaUbaWAtOuAtUuRAGE BWEEbbIzFWEEbbIzGWEbcEbbIzHHWAzKWE
bcEbbIzMWEEbbIzPWEEbbIzQWEbcEbbItWAvAuEvEuItYAvAuEvEuIuOuUsHAuAtEuEtHAvAuEvEuIuOuUuWAvEwEvIuYAwAv
EwEvIvOvUtItOuAtUsJAuAtEuEtItOuAtUtWAsKAuAtEuEtItOuAtUtWAvAuEvEuItXAvAuEvEuIuOuUuWAwAvEwEvItYAvAu
EvEuIuOuUsLAuAtEuEtItOuAtUtWAsMAuAtEuEtItOuAtUtWAuEvEuItYAsNAuAtEuEtItOuAtUtWAtYAvAuEvEuIuOvAuUuW
AsPAuAtEuEtHAvAvRYNGEAL AbeAbdEbeEbdIbdObdUuEvEuIuOvAuUuWAtItOuAtUtWAuEvEuIsQAuAtEuEtHAvAuEvEuIuO
uUuWAwAvEwEvItItOuAtUtWAvAuEvEuItYAvAuEvEuIuOuUsRAuAtEuEtItOuAtUtWAtYAsSAuAtEuBATBEIT BWAbcFWAbcM
WAbcPWAuEtHAvAuEvEuIuOvAuUuWAtItOuAtSAvAuEvEuIuOuUtUtWAtZAvAuEvEuIuOuUuWAsTAuAtEuEtHAvAuEvEuIuOvA
uUuWAtItOuAtSAvAuEvEuIuOuUuWAtTHAAvEwEvIvOvUtUtWAtZAvAuEvEuIuOvAuUsVAuAtEuEtItOtUtWAsWAuAtEuEtItO
uAtUsXAuAtEuEtItOuAtUtWAvAuEvEuItYAvAuEvEuIuOuUsYAuAtEuEtItOuAtUsZAuAtEuEtHAvAuEvEuIuOuUuWAtItOuA
tUtWAtZAvAuEvEuIuOuUjTONAL MARK CHIRETuDERETz-HIDETvIFATuHIDETuKENATvURTuRIKRIKuSHORT RIKRIKuYIZE
TjWORDSPACEbULER CONSTANTcRO SIGNe-CURRENCY SIGNePEAN CASTLEjPOST OFFICEbVERGREEN TREEbXCESSdLAMA
TION QUESTION MARKcPRESSIONLESS FACEcTENDED ARABIC-INDIC DIGIT EIGHTbcFIVEbdOURbcNINEbcONEbcSEVEN
bdIXbcTHREEbdWObcZEROdRATERRESTRIAL ALIENeEMELY HEAVY FIVE SPOKED ASTERISKqGREEK CROSSqSALTIRErI
X SPOKED ASTERISKqWHITE CIRCLEwSQUAREbYEdGLASSESdS"),
  ('F', "
aFACE HOLDING BACK TEARSfMASSAGEfPALMfSAVOURING DELICIOUS FOODgCREAMING IN FEARfTHROWING A KISSfW
ITH COLD SWEATmWBOY HATkDIAGONAL MOUTHkFINGER COVERING CLOSED LIPSkHEAD-BANDAGEkLOOK OF TRIUMPHkM
EDICAL MASKlONOCLEkNO GOOD GESTUREkOK GESTURElNE EYEBROW RAISEDlPEN EYES AND HAND OVER MOUTHpMOUT
Hu AND COLD SWEATvVOMITINGkPARTY HORN AND PARTY HATlEEKING EYElLEADING EYESkROLLING EYESkSTUCK-OU
T TONGUEba AND TIGHTLY-CLOSED EYESbfWINKING EYEkTEARS OF JOYlHERMOMETERkUNEVEN EYES AND WAVY MOUT
HjOUT MOUTHdSIMILE SIGNdTORYcIRYcLAFELdLEN LEAFeING DIAGONAL CROSSING NORTH EAST ARROWbaRISING DI
AGONALrIN WHITE CIRCLE IN BLACK SQUAREcMILYcRSI SYMBOLcTHER CHRISTMAScX ICONeMACHINEbEARFUL FACEd
THERcMALE SIGNcNCERcRRIS WHEELeYbIELD HOCKEY STICK AND BALLcGURE DASHhSPACEcLE CABINETfFOLDERdM F
RAMESfPROJECTORcNITE PART INTEGRALcREe ENGINEgXTINGUISHEReCRACKEReWORK SPARKLERiSdST PLACE MEDALg
QUARTER MOONs SYMBOLtWITH FACEgSTRONG ISOLATEcSHe CAKE WITH SWIRL DESIGNeEYEeING POLE AND FISHdTE
D HAND SIGNcVE DOT MARKjPUNCTUATIONbLAG IN HOLEdMINGOdT SHOEeBREADeNESScEUR-DE-LISdXED BICEPScOPP
Y DISKdRAL HEARTdWERg PLAYING CARDSiUNCTUATION MARKcUSHED FACEcYdING DISChENVELOPEhSAUCERbOGdGYcL
DERcNDUEcOTePRINTScR ALLdCESdK AND KNIFEo WITH PLATEeED PARAGRAPHOSeINGdTUNE COOKIEcUNTAINdR BALL
OON-SPOKED ASTERISKfCLUB-SPOKED ASTERISKgORNER ARROWS CIRCLING ANTICLOCKWISEfDOT MARKjPUNCTUATION
fLEAF CLOVERfPOINTED BLACK STARfTEARDROP-SPOKED ASTERISKe-PER-EM SPACEeTH ROOTcX FACEbRACTION NUM
ERATOR ONEjSLASHdME WITH AN XlPICTURElTILEScEEZING FACEdNCH FRANC SIGNjIEScIED SHRIMPcOG FACEdNT
-FACING BABY CHICKgTILTED SHADOWED WHITE RIGHTWARDS ARROWdWNfING FACE WITH OPEN MOUTHbSIbUEL PUMP
cLL BLOCKfMOON SYMBOLkWITH FACEfOUTER JOINeWIDTH AMPERSANDlPOSTROPHElSTERISKkBROKEN BARkCENT SIGN
lIRCUMFLEX ACCENTlOLONmMMAoERCIAL ATkDIGIT EIGHTqFIVErOURqNINEqONEqSEVENrIXqTHREErWOqZEROlOLLAR S
IGNkEQUALS SIGNlXCLAMATION MARKkFULL STOPkGRAVE ACCENTmEATER-THAN SIGNkHYPHEN-MINUSkLATIN CAPITA
L LETTER AbfBbfCbfDbfEbfFbfGbfHbfIbfJbfKbfLbfMbfNbfObfPbfQbfRbfSbfTbfUbfVbfWbfXbfYbfZqSMALL LETTE
R AbdBbdCbdDbdEbdFbdGbdHbdIbdJbdKbdLbdMbdNbdObdPbdQbdRbdSbdTbdUbdVbdWbdXbdYbdZlEFT CURLY BRACKETp
PARENTHESISpSQUARE BRACKETpWHITE PARENTHESISmSS-THAN SIGNlOW LINEkMACRONkNOT SIGNlUMBER SIGNkPERC
ENT SIGNlLUS SIGNlOUND SIGNkQUESTION MARKmOTATION MARKkREVERSE SOLIDUSlIGHT CURLY BRACKETqPARENTH
ESISqSQUARE BRACKETqWHITE PARENTHESISkSEMICOLONlOLIDUSkTILDEkVERTICAL LINEkWON SIGNkYEN SIGNcNCTI
ON APPLICATIONdERAL URNcSEbVS1d2d3d4"),
  ('G', "
aGAME DIEcRLICbEARe WITH HANDLESjOUT HUBcM STONEdINIcNIEcOMETRIC PROPORTIONjALLY EQUAL TOrIVALEN
T TOdRGIAN CAPITAL LETTER AENzNyBANyCANzHARbaINzILyDONyENyGANzHANyHAEbaRzEzIEzOEyINyJHANzILyKANzH
ARyLASyMANyNARyONyPARzHARyQARyRAEySANzHINyTANbaRyUNyVINyWEyXANyYNyZENzHARjLETTER AENrINrNqBANqCAN
rHARsINrILqDONqELIFIrNqFIqGANrHANqHAEsRtD SIGNrErIErOEqINqJHANrILqKANrHARqLABIAL SIGNsSqMANqNARqO
NqPARrHARqQARqRAEqSANrHINqTANsRrURNED GANqUNqVINqWEqXANqYNqZENrHARjMTAVRULI CAPITAL LETTER AENbiI
NbiNbhBANbhCANbiHARbjINbiILbhDONbhELIFIbiNbhFIbhGANbiHANbhHAEbjRbkD SIGNbiEbiIEbiOEbhINbhJHANbiIL
bhKANbiHARbhLABIAL SIGNbjSbhMANbhNARbhONbhPARbiHARbhQARbhRAEbhSANbiHINbhTANbjRbiURNED GANbhUNbhVI
NbhWEbhXANbhYNbhZENbiHARjPARAGRAPH SEPARATORjSMALL LETTER AENxNwBANwCANxHARyINxILwDONwENwGANxHANw
HAEyRxExIExOEwINwJHANxILwKANxHARwLASwMANwNARwONwPARxHARwQARwRAEwSANxHINwTANyRwUNwVINwWEwXANwYNwZE
NxHARcRMAN PENNY SIGNcTA MARKbHOSTbIMEL SYMBOLcRAFFE FACEdLeS SYMBOLbLAGOLITIC CAPITAL LETTER AZU
baBIG YUSbbUKYbaCAUDATE CHRIVIbbHRIVIbaDJERVIbbOBRObbZELObaFITAbbRITUbaGLAGOLIbaHERUbaIbbNITIAL I
ZHEbbOTATED BIG YUSbiSMALL YUSbbZHEbdITSAbaKAKObaLATINATE MYSLITEbbJUDIJEbaMYSLITEbaNASHIbaONUbbT
UbaPEbbOKOJIbaRITSIbaSHAbcTAbePICbbLOVObbMALL YUSbj WITH TAILbbPIDERY HAbaTROKUTASTI AbbSIbbVRIDO
baUKUbaVEDEbaYATIbbERIbdUbcSTUbbObbUbaZEMLJAbbHIVETElSMALL LETTER AZUyBIG YUSzUKYyCAUDATE CHRIVIz
HRIVIyDJERVIzOBROzZELOyFITAzRITUyGLAGOLIyHERUyIzNITIAL IZHEzOTATED BIG YUSbgSMALL YUSzZHEbbITSAyK
AKOyLATINATE MYSLITEzJUDIJEyMYSLITEyNASHIyONUzTUyPEzOKOJIyRITSIySHAbaTAbcPICzLOVOzMALL YUSbh WIT
H TAILzPIDERY HAyTROKUTASTI AzSIzVRIDOyUKUyVEDEyYATIzERIbbUbaSTUzOzUyZEMLJAzHIVETEdSS OF MILKcEIC
H STARKcOBE WITH MERIDIANSdVESdWING STARbOAL NETdTcGGLEScLFERcRILLAcTHIC LETTER AHSApIHVUSoBAIRKA
NoDAGSoEISoFAIHUoGIBAoHAGLpWAIRoIGGWSpUJAoJERoKUSMAoLAGUSoMANNAoNAUTHSpINE HUNDREDsTYoOTHALoPAIRT
HRAoQAIRTHRAoRAIDAoSAUILoTEIWSpHIUTHoURUSoWINJAbRADUATION CAPdNTHA AU LENGTH MARKiLETTER AqAqIqUp
BAqHApCAqHApDAqDArHAqHApEEpGAqHApHApIqIpJAqHApKAqHApLAqLApMApNAqGAqNAqYApOOpPAqHApRApSAqHAqSApTAq
HAqTArHApUqUpVAqEDIC ANUSVARAvDOUBLE ANUSVARAqOCALIC LyLxRyRpYAiOMiSIGN ANUSVARAoVAGRAHAnCANDRABI
NDUoOMBINING ANUSVARA ABOVEnNUKTAnPLUTAnVIRAMApSARGAiVOWEL SIGN AAuIuUtEEtIuItOOtUuUtVOCALIC LbcL
bbRbcRdPEScEATER-THAN ABOVE DOUBLE-LINE EQUAL ABOVE LESS-THANtLESS-THAN ABOVE DOUBLE-LINE EQUALtR
IGHTWARDS ARROWtSIMILAR ABOVE LESS-THANbbOR EQUALuLANTED EQUAL ABOVE LESS-THAN ABOVE SLANTED EQUA
LoND NOT APPROXIMATErSINGLE-LINE NOT EQUAL TOnBESIDE LESS-THANoUT NOT EQUAL TOyIVALENT TOnCLOSE
D BY CURVEbc ABOVE SLANTED EQUALnEQUAL TO OR LESS-THANnOR APPROXIMATEqEQUAL TOtIVALENT TOqLESS-TH
ANqSLANTED EQUAL TObg WITH DOT ABOVEbv LEFTbqINSIDEoVER EQUAL TOrLAPPING LESS-THANnWITH CIRCLE IN
SIDEsDOTsQUESTION MARK ABOVEdEK ACROPHONIC ATTIC FIFTYbc STATERSbdTALENTSbeHOUSANDbl STATERSzVEb
b HUNDREDbj STATERSbkTALENTSbcSTATERSbcTALENTSbdHOUSANDbk TALENTSxONE DRACHMAbbHALFbcUNDRED STATE
RSbjTALENTSbbQUARTERbbTHOUSAND STATERSbkTALENTSxTEN MNASbbSTATERSbbTALENTSbcHOUSAND STATERSrCARYS
TIAN FIVE HUNDREDsYRENAIC TWO DRACHMASrDELPHIC FIVE MNASrEPIDAUREAN FIVE HUNDREDbcTWObf DRACHMASr
HERAEUM ONE PLETHRONuMIONIAN FIFTYbcONEbcTENrMESSENIAN TENrNAXIAN FIVE HUNDREDrSTRATIAN FIFTY MNA
SrTHESPIAN FIFTYbcVE HUNDREDbfTHOUSANDbaONEbd HUNDREDbeTHOUSANDbaTENbbHIRTYbcREE HUNDREDbbWOsROEZ
ENIAN FIFTYbh ALTERNATE FORMbeVEbg HUNDREDbcTENbf ALTERNATE FORMhNO TELEIAhROURA SIGNiTABE SIGNgB
ETA SYMBOLgCAPITAL DOTTED LUNATE SIGMA SYMBOLoKAI SYMBOLoLETTER ALPHAba WITH DASIAbl AND OXIAbu A
ND PROSGEGRAMMENIbqPERISPOMENIcb AND PROSGEGRAMMENIbrROSGEGRAMMENIbqVARIAbv AND PROSGEGRAMMENIbgM
ACRONbgOXIAbgPROSGEGRAMMENIbhSILIbl AND OXIAbu AND PROSGEGRAMMENIbqPERISPOMENIcb AND PROSGEGRAMME
NIbrROSGEGRAMMENIbqVARIAbv AND PROSGEGRAMMENIbgTONOSbgVARIAbhRACHYwRCHAIC SAMPIvBETAvCHIvDELTAvEP
SILONbc WITH DASIAbn AND OXIAbsVARIAbiOXIAbiPSILIbn AND OXIAbsVARIAbiTONOSbiVARIAwTAy WITH DASIAb
j AND OXIAbs AND PROSGEGRAMMENIboPERISPOMENIbz AND PROSGEGRAMMENIbpROSGEGRAMMENIboVARIAbt AND PRO
SGEGRAMMENIbeOXIAbePROSGEGRAMMENIbfSILIbj AND OXIAbs AND PROSGEGRAMMENIboPERISPOMENIbz AND PROSGE
GRAMMENIbpROSGEGRAMMENIboVARIAbt AND PROSGEGRAMMENIbeTONOSbeVARIAvGAMMAvHETAvIOTAz WITH DASIAbk A
ND OXIAbpPERISPOMENIbpVARIAbgIALYTIKAbfMACRONbfOXIAbfPSILIbk AND OXIAbpPERISPOMENIbpVARIAbfTONOSb
fVARIAbgRACHYvKAPPAvLAMDAvMUvNUvOMEGAba WITH DASIAbl AND OXIAbu AND PROSGEGRAMMENIbqPERISPOMENIc
b AND PROSGEGRAMMENIbrROSGEGRAMMENIbqVARIAbv AND PROSGEGRAMMENIbgOXIAbgPROSGEGRAMMENIbhSILIbl AN
D OXIAbu AND PROSGEGRAMMENIbqPERISPOMENIcb AND PROSGEGRAMMENIbrROSGEGRAMMENIbqVARIAbv AND PROSGEG
RAMMENIbgTONOSbgVARIAxICRONbc WITH DASIAbn AND OXIAbsVARIAbiOXIAbiPSILIbn AND OXIAbsVARIAbiTONOSb
iVARIAvPAMPHYLIAN DIGAMMAwHIwIwSIvRHOy WITH DASIAvSANwHOwIGMAvTAUwHETAvUPSILONbc WITH DASIAbn AN
D OXIAbsPERISPOMENIbsVARIAbjIALYTIKAbiMACRONbiOXIAbiTONOSbiVARIAbjRACHYvXIvYOTvZETApUNATE SIGMA S
YMBOLoREVERSED DOTTED LUNATE SIGMA SYMBOLxLUNATE SIGMA SYMBOLoTHETA SYMBOLgDASIAl AND OXIAqPERISP
OMENIqVARIAhIALYTIKA AND OXIAuPERISPOMENIuVARIAqTONOShRACHMA SIGNgFIVE OBOLS SIGNhOUR OBOLS SIGNg
GRAMMA SIGNgINDICTION SIGNiSTRUMENTAL NOTATION SYMBOL-1bk1bk2bk3bk4bk7bk8bk9bj2bk3bk4bk5bk6bk7bk9
bj30bk2bk6bk7bk8bk9bj4bk0bk2bk3bk5bk7bk8bk9bj5bk0bk1bk2bk3bk4bj7bj8gKAI SYMBOLiPPA SYMBOLhORONISh
YATHOS BASE SIGNgLETTER ARCHAIC KOPPAnDIGAMMAnKOPPAnSAMPIoMALL CAPITAL GAMMAbbLAMDAbbOMEGAbbPIbcS
IbbRHOoTIGMAnYOThITRA SIGNhOWER NUMERAL SIGNhUNATE EPSILON SYMBOLnSIGMA SYMBOLgMETRETES SIGNhUSIC
AL LEIMMAgNUMERAL SIGNgOBOL SIGNhNE HALF SIGNt ALTERNATE FORMkQUARTER SIGNhUNKIA SIGNhXIAgPERISPO
MENIhHI SYMBOLhI SYMBOLhROSGEGRAMMENIhSILIl AND OXIAqPERISPOMENIqVARIAgQUESTION MARKgREVERSED LUN
ATE EPSILON SYMBOLhHO SYMBOLkWITH STROKE SYMBOLgSINUSOID SIGNhMALL DOTTED LUNATE SIGMA SYMBOLmLET
TER ALPHAy WITH DASIAbj AND OXIAbs AND YPOGEGRAMMENIboPERISPOMENIbz AND YPOGEGRAMMENIboVARIAbt AN
D YPOGEGRAMMENIboYPOGEGRAMMENIbeMACRONbeOXIAbi AND YPOGEGRAMMENIbePERISPOMENIbp AND YPOGEGRAMMENI
bfSILIbj AND OXIAbs AND YPOGEGRAMMENIboPERISPOMENIbz AND YPOGEGRAMMENIboVARIAbt AND YPOGEGRAMMENI
boYPOGEGRAMMENIbeTONOSbeVARIAbj AND YPOGEGRAMMENIbfRACHYbeYPOGEGRAMMENIuRCHAIC KOPPAbbSAMPItBETAt
CHItDELTAuIGAMMAtEPSILONba WITH DASIAbl AND OXIAbqVARIAbgOXIAbgPSILIbl AND OXIAbqVARIAbgTONOSbgVA
RIAuTAw WITH DASIAbh AND OXIAbq AND YPOGEGRAMMENIbmPERISPOMENIbx AND YPOGEGRAMMENIbmVARIAbr AND Y
POGEGRAMMENIbmYPOGEGRAMMENIbcOXIAbg AND YPOGEGRAMMENIbcPERISPOMENIbn AND YPOGEGRAMMENIbdSILIbh AN
D OXIAbq AND YPOGEGRAMMENIbmPERISPOMENIbx AND YPOGEGRAMMENIbmVARIAbr AND YPOGEGRAMMENIbmYPOGEGRAM
MENIbcTONOSbcVARIAbh AND YPOGEGRAMMENIbcYPOGEGRAMMENItFINAL SIGMAtGAMMAtHETAtIOTAx WITH DASIAbi A
ND OXIAbnPERISPOMENIbnVARIAbeIALYTIKAbm AND OXIAbrPERISPOMENIbrTONOSbrVARIAbdMACRONbdOXIAbdPERISP
OMENIbeSILIbi AND OXIAbnPERISPOMENIbnVARIAbdTONOSbdVARIAbeRACHYtKAPPAuOPPAtLAMDAtMUtNUtOMEGAy WIT
H DASIAbj AND OXIAbs AND YPOGEGRAMMENIboPERISPOMENIbz AND YPOGEGRAMMENIboVARIAbt AND YPOGEGRAMMEN
IboYPOGEGRAMMENIbeOXIAbi AND YPOGEGRAMMENIbePERISPOMENIbp AND YPOGEGRAMMENIbfSILIbj AND OXIAbs AN
D YPOGEGRAMMENIboPERISPOMENIbz AND YPOGEGRAMMENIboVARIAbt AND YPOGEGRAMMENIboYPOGEGRAMMENIbeTONOS
beVARIAbj AND YPOGEGRAMMENIbeYPOGEGRAMMENIvICRONba WITH DASIAbl AND OXIAbqVARIAbgOXIAbgPSILIbl AN
D OXIAbqVARIAbgTONOSbgVARIAtPAMPHYLIAN DIGAMMAuHIuIuSItRHOw WITH DASIAbcPSILItSAMPIvNuHOuIGMAuTIG
MAtTAUuHETAtUPSILONba WITH DASIAbl AND OXIAbqPERISPOMENIbqVARIAbhIALYTIKAbp AND OXIAbuPERISPOMENI
buTONOSbuVARIAbgMACRONbgOXIAbgPERISPOMENIbhSILIbl AND OXIAbqPERISPOMENIbqVARIAbgTONOSbgVARIAbhRAC
HYtXItZETAmREVERSED DOTTED LUNATE SIGMA SYMBOLvLUNATE SIGMA SYMBOLhUBSCRIPT SMALL LETTER BETAbdCH
IbdGAMMAbdPHIbdRHOhYMBOL TAU RHOgTALENT SIGNhHETA SYMBOLiREE OBOLS SIGNmQUARTERS SIGNhONOShRYBLIO
N BASE SIGNhWO OBOLS SIGNkTHIRDS SIGNgUPSILON WITH ACUTE AND HOOK SYMBOLtDIAERESIS AND HOOK SYMBO
LtHOOK SYMBOLgVARIAhOCAL NOTATION SYMBOL-1bd0bd1bd2bd3bd4bd5bd6bd7bd8bd9bc2bd0bd1bd2bd3bd4bc3bc4b
c5bd0bd1bd2bd3bd4bc6bc7bc8bc9gXESTES SIGNgYEAR SIGNhPOGEGRAMMENIgZERO SIGNeN APPLEgBOOKgHEARTgSAL
ADcIMACING FACEdNNING CAT FACE WITH SMILING EYESjFACEn WITH ONE LARGE AND ONE SMALL EYEtSMILING E
YESuTAR EYEScOUP MARKdWING HEARTbUARANI SIGNeDSMANcIDE DOGdTARcJARATI ABBREVIATION SIGNjDIGIT EIG
HTpFIVEqOURpNINEpONEpSEVENqIXpTHREEqWOpZEROjLETTER ArArIrUqBArHAqCArHAqDArDAsHArHAqEqGArHAqHAqIrI
qJArHAqKArHAqLArLAqMAqNArGArNArYAqOqPArHAqRAqSArHArSAqTArHArTAsHAqUrUqVArOCALIC LzLyRzRqYAqZHAjOM
jRUPEE SIGNjSIGN ANUSVARApVAGRAHAoCANDRABINDUpIRCLE NUKTA ABOVEoMADDAHoNUKTAoSHADDApUKUNoTHREE-DO
T NUKTA ABOVEpWO-CIRCLE NUKTA ABOVEoVIRAMAqSARGAjVOWEL CANDRA EwOpSIGN AAvIvUuCANDRA EbbOuEuIvIuO
uUvUuVOCALIC LbdLbcRbdRcNJALA GONDI DIGIT EIGHTuFIVEvOURuNINEuONEuSEVENvIXuTHREEvWOuZEROoLETTER A
wAwIwUvBAwHAvCAwHAvDAwDAxHAwHAvEEvGAwHAvHAvIwIvJAwHAvKAwHAvLAwLAvMAvNAwGAvOOvPAwHAvRAvSAvTAwHAwTA
xHAvUwUvVAvYAoOMoSIGN ANUSVARAtVISARGAoVIRAMApOWEL SIGN AAbaIbaUzEEzIbaIzOOzUbaUcRMUKHI ABBREVIAT
ION SIGNkDDAKjDIGIT EIGHTpFIVEqOURpNINEpONEpSEVENqIXpTHREEqWOpZEROjEK ONKARjIRIjLETTER ArArIrUqBA
rHAqCArHAqDArDAsHArHAqEEqFAqGArHAsHAqHAqIrIqJArHAqKArHAsHAqLArLAqMAqNArGArNArYAqOOqPArHAqRArRAqSA
rHAqTArHArTAsHAqUrUqVAqYAqZAjSIGN ADAK BINDIoBINDIoNUKTAoUDAAToVIRAMAqSARGAoYAKASHjTIPPIjURAjVOWE
L SIGN AAvIvUuEEuIvIuOOuUvU"),
  ('H', "
aHADEScIR SPACEeCUTcLFWIDTH BLACK SQUAREkDOWNWARDS ARROWkFORMS LIGHT VERTICALkHANGUL FILLERrLETTE
R AzEyCHIEUCHzIEUCyEzOzUyHIEUHyIzEUNGyKHIEUKHzIYEOKbe-SIOSyMIEUMyNIEUNbd-CIEUCbeHIEUHyOzEyPHIEUPH
zIEUPbd-SIOSyRIEULbd-HIEUHbeKIYEOKbeMIEUMbePHIEUPHbfIEUPbeSIOSbeTHIEUTHySIOSzSANGCIEUCbdKIYEOKbdP
IEUPbdSIOSbdTIKEUTyTHIEUTHzIKEUTyUyWAbaEzEbaOzIyYAbaEzEbaOzIzOzUkIDEOGRAPHIC COMMAwFULL STOPkKATA
KANA LETTER AbaEbaHAbbEbbIbbObbUbaIbaKAbbEbbIbbObbUbaMAbbEbbIbbObbUbaNbbAbbEbbIbbObbUbaObaRAbbEbb
IbbObbUbaSAbbEbbIbbMALL AbgEbgIbgObgTUbgUbgYAbhObhUbbObbUbaTAbbEbbIbbObbUbaUbaWAbbObaYAbbObbUtMID
DLE DOTtSEMI-VOICED SOUND MARKtVOICED SOUND MARKs-HIRAGANA PROLONGED SOUND MARKkLEFT CORNER BRACK
EToWARDS ARROWkRIGHT CORNER BRACKETpWARDS ARROWkUPWARDS ARROWkWHITE CIRCLEcMBURGERdMERg AND PICKl
SICKLElWRENCHdSAeTER FACEcND WITH INDEX AND MIDDLE FINGERS CROSSEDqFINGER AND THUMB CROSSEDeBAGgL
LeSHAKEdGUL CHOSEONG CEONGCHIEUMCHIEUCHbcIEUCbbSIOSbcSANGCIEUCbgSIOSrHIEUCHx-HIEUHyKHIEUKHtTUEUMC
HIEUCHzIEUCySIOSzSANGCIEUCbdSIOSrIEUCv-IEUNGqFILLERqHIEUHv-SIOSqIEUNGv-CHIEUCHxIEUCwHIEUHwKIYEOKw
MIEUMwPANSIOSxHIEUPHxIEUPwRIEULwSIOSwTHIEUTHxIKEUTqKAPYEOUNMIEUMyPHIEUPHzIEUPyRIEULySSANGPIEUPrHI
EUKHrIYEOKw-TIKEUTqMIEUMv-KIYEOKwPIEUPwSIOSwTIKEUTqNIEUNv-CIEUCwHIEUHwKIYEOKwPIEUPwSIOSwTIKEUTqPA
NSIOSrHIEUPHx-HIEUHyPIEUPrIEUPv-CHIEUCHxIEUCwHIEUHwKHIEUKHxIYEOKwNIEUNwPHIEUPHwSIOSba-CIEUCbbKIYE
OKbbPIEUPbbTHIEUTHbcIKEUTxSANGSIOSwTHIEUTHxIKEUTqRIEULv-CIEUCwHIEUHwKAPYEOUNPIEUPxHIEUKHxIYEOKwMI
EUMwNIEUNwPIEUPwSIOSxSANGKIYEOKbbPIEUPbbTIKEUTwTIKEUTqSIOSu-CHIEUCHwIEUCvHIEUHvIEUNGvKHIEUKHwIYEO
KvMIEUMvNIEUNvPHIEUPHwIEUPba-KIYEOKvRIEULvSSANGSIOSvTHIEUTHwIKEUTrSANGCIEUCba-HIEUHvHIEUHvIEUNGvK
IYEOKvNIEUNvPIEUPvRIEULvSIOSz-PIEUPvTHIEUTHwIKEUTvYEORINHIEUHqTHIEUTHrIKEUTw-CIEUCxKIYEOKxMIEUMxP
IEUPxRIEULxSIOSqYEORINHIEUHsSIEUNGhDOUBLE DOT TONE MARKhFILLERhJONGSEONG CHIEUCHsIEUCw-PIEUPxSSAN
GPIEUPrHIEUHw-MIEUMxNIEUNxPIEUPxRIEULrIEUNGw-KHIEUKHyIYEOKxSSANGKIYEOKrKAPYEOUNMIEUMzPHIEUPHbaIEU
PzRIEULsHIEUKHsIYEOKx-CHIEUCHyHIEUHyKHIEUKHyNIEUNyPIEUPyRIEULySIOSbc-KIYEOKrMIEUMw-CHIEUCHyIEUCxH
IEUHxKIYEOKxNIEUNxPANSIOSyIEUPbc-SIOSxRIEULxSIOSySANGNIEUNbcSIOSrNIEUNw-CHIEUCHyIEUCxHIEUHxKIYEOK
xPANSIOSxRIEULxSIOSxTHIEUTHyIKEUTrPANSIOSy-KAPYEOUNPIEUPzPIEUPsHIEUPHy-PIEUPzSIOSzTHIEUTHsIEUPw-C
HIEUCHyIEUCxHIEUHxMIEUMxPHIEUPHxRIEULbc-PHIEUPHxSIOSbb-TIKEUTxTIKEUTrRIEULw-HIEUHxKAPYEOUNPIEUPyH
IEUKHyIYEOKbd-HIEUHbeSIOSxMIEUMbc-HIEUHbdKIYEOKbdSIOSxNIEUNxPANSIOSyHIEUPHyIEUPbc-HIEUHbdPHIEUPHb
dSIOSbdTIKEUTxSIOSySANGKIYEOKbcSIOSxTHIEUTHyIKEUTbd-HIEUHxYEORINHIEUHbi-HIEUHzSIEUNGrSIOSv-CHIEUC
HxIEUCwHIEUHwKAPYEOUNPIEUPxIYEOKwMIEUMwPANSIOSxIEUPwRIEULwTHIEUTHxIKEUTsSANGCIEUCwIEUNGwKIYEOKwMI
EUMwNIEUNwPIEUPwRIEULbb-KHIEUKHwSIOSba-KIYEOKbbTIKEUTwTIKEUTbc-PIEUPwYESIEUNGrTHIEUTHsIKEUTx-CHIE
UCHzIEUCyKIYEOKyPIEUPyRIEULySIOSbc-KIYEOKyTHIEUTHrYEORINHIEUHtSIEUNGz-HIEUHbaKHIEUKHbbIYEOKbaMIEU
MbaPANSIOSbaSIOSbbSANGKIYEOKiUNGSEONG As-EUtOtUsEsRAEAw-AxEyOxIxUrEsOt-EUuOuUsUt-AuEvOvUuOuUrFILL
ERrIs-AuRAEAtEUtItOu-ItUtYAv-OvEuEvOuOuUrOs-EuOtOu-ItUtYAvEuEvOsErSSANGARAEArUs-AuEtEO-EUtI-ItUtY
EvOrWAtEsEtOsIrYAt-OuUuYOtEsEtOu-OvUvYAsIt-UsOt-AvEuEOuIuOuYAwEvEOsUt-AvEuEvOuIuOuUuYEwOhLETTER A
pEpRAEAtEoCHIEUCHpIEUCoEpOpUoHIEUHoIpEUNGoKAPYEOUNMIEUMwPHIEUPHxIEUPwSSANGPIEUPpHIEUKHpIYEOKu-SIO
SoMIEUMt-PANSIOSvIEUPuSIOSoNIEUNt-CIEUCuHIEUHuPANSIOSuSIOSuTIKEUToOpEoPANSIOSpHIEUPHpIEUPt-CIEUCu
KIYEOKuSIOSy-KIYEOKzTIKEUTuTHIEUTHvIKEUToRIEULt-HIEUHuKIYEOKba-SIOSuMIEUMuPANSIOSvHIEUPHvIEUPz-SI
OSuSIOSuTHIEUTHvIKEUTuYEORINHIEUHoSIOSs-CIEUCtKIYEOKtNIEUNtPIEUPtTIKEUTpSANGCIEUCtHIEUHtIEUNGtKIY
EOKtNIEUNtPIEUPtSIOStTIKEUToTHIEUTHpIKEUToUoWAqEpEqOpIoYAqEpEqOrRINHIEUHqSIEUNGw-PANSIOSxSIOSpIpO
q-IrYAtEpUq-IrYEtOhSINGLE DOT TONE MARKeZHOU NUMERAL EIGHTrFIVEsOURrNINErONErSEVENsIXrTENsHIRTYtR
EEsWENTYtOdIFI ROHINGYA DIGIT EIGHTwFIVExOURwNINEwONEwSEVENxIXwTHREExWOwZEROqLETTER AxBAxCAxDAyDA
xFAxGAxHAxJAxKAyHAyINNA WAbdYAxLAxMAxNAyGAyYAxPAxRAyRAxSAyHAxTAyTAxVAxWAxYAxZAqMARK NA KHONNAvSAK
INqSIGN HARBAHAYvTAHALAxNAxSSIqVOWEL AwEwIwOwUdUNOO LETTER ApBApDApGApHApIpKApLApMApNAqGApPApRApS
ApTApUpWApYAiSIGN PAMUDPODiVOWEL SIGN ItUcPPY PERSON RAISING ONE HANDcRD DISKcTCHING CHICKdRAN LE
TTER ALEPHpYNoBETHoDALETH-RESHoGIMELoHEqTHoKAPHoLAMEDHoMEMoNUNoPEoQOPHoSADHEqMEKHpHINoTAWpETHoWAW
oYODHoZAYNhNUMBER FIVEoONEr HUNDREDoTENpWENTYbEADPHONEeSTONEj GRAVEYARD SYMBOLdR-NO-EVIL MONKEYe
T DECORATIONgHANDSgWITH ARROWlRIBBONlTIP ON THE LEFTdVY AMPERSAND ORNAMENThRROW SHAFT WIDTH ONEb
b HALFbcTHIRDyTWO THIRDShSTERISKgBALLOT XhLACK CURVED DOWNWARDS AND RIGHTWARDS ARROWtUPWARDS AN
D RIGHTWARDS ARROWmHEARTl-FEATHERED NORTH EAST ARROWwRIGHTWARDS ARROWwSOUTH EAST ARROWgCHECK MARK
jVRON SNOWFLAKEhIRCLEm WITH CIRCLE INSIDEsSTROKE AND TWO DOTS ABOVEmD SALTIREhONCAVE-POINTED BLAC
K RIGHTWARDS ARROWgDASHED TRIANGLE-HEADED RIGHTWARDS ARROWhIVISION SIGNhOLLAR SIGNiUBLE COMMA QUO
TATION MARK ORNAMENTnTURNED COMMA QUOTATION MARK ORNAMENTiWNWARDS ARROW WITH EQUILATERAL ARROWHEA
DbbLARGE EQUILATERAL ARROWHEADgEIGHT POINTED BLACK STARuPINWHEEL STARuRECTILINEAR BLACK STARmSPOK
ED ASTERISKmTEARDROP-SPOKED PROPELLER ASTERISKhQUALS SIGNhXCLAMATION MARK ORNAMENTxSYMBOLgFIVE PO
INTED BLACK STARlSPOKED ASTERISKhOUR BALLOON-SPOKED ASTERISKgGREEK CROSSgHEART EXCLAMATION MARK O
RNAMENThORIZONTAL FILLgINTERROBANG ORNAMENTgLARGE CIRCLEiTIN CROSShEFT-POINTING ANGLE BRACKET ORN
AMENTbaQUOTATION MARK ORNAMENTkWARDS ARROW WITH EQUILATERAL ARROWHEADbbLARGE EQUILATERAL ARROWHEA
DhIGATURE OPEN ET ORNAMENThOW DOUBLE COMMA QUOTATION MARK ORNAMENTkSINGLE COMMA QUOTATION MARK OR
NAMENTjER RIGHT-SHADOWED WHITE RIGHTWARDS ARROWgMINUS SIGNhULTIPLICATION XgNORTH EAST ARROWrPOINT
ING BUDbaVINE LEAFmWEST POINTING BUDbaVINE LEAFgOPEN CENTRE CROSShUTLINED BLACK STARhVAL WITH OVA
L INSIDEgPLUS SIGNgRIGHT-POINTING ANGLE BRACKET ORNAMENTbbQUOTATION MARK ORNAMENTlWARDS ARROWw WI
TH EQUILATERAL ARROWHEADbcLARGE EQUILATERAL ARROWHEADhOUND-TIPPED RIGHTWARDS ARROWgSALTIREiNS-SER
IF INTERROBANG ORNAMENThCRIPT LIGATURE ET ORNAMENThINGLE COMMA QUOTATION MARK ORNAMENTnTURNED COM
MA QUOTATION MARK ORNAMENTiX POINTED BLACK STARkSPOKED ASTERISKhOUTH EAST ARROWrPOINTING BUDbaVIN
E LEAFmWEST POINTING BUDbaVINE LEAFhPARKLEgTEARDROP-SHANKED RIGHTWARDS ARROWqPOKED ASTERISKwPINWH
EEL ASTERISKhRIANGLE-HEADED RIGHTWARDS ARROWhWELVE POINTED BLACK STARvPINWHEEL STARgUPPER RIGHT-S
HADOWED WHITE RIGHTWARDS ARROWiWARDS ARROW WITH EQUILATERAL ARROWHEADzLARGE EQUILATERAL ARROWHEAD
gVERTICAL BARgWEDGE-TAILED RIGHTWARDS ARROWhHITE CIRCLEmDOWN-POINTING TRIANGLEmSQUAREhIDE-HEADE
D RIGHTWARDS ARROWcBREW ACCENT ATNAH HAFUKHoDARGApEHIoETNAHTAoGERESHu MUQDAMrSHAYIMoILUYoMAHAPAKH
pERKHAu KEFULApUNAHoOLEoPASHTAqZERoQADMAqRNEY PARAoREVIAoSEGOLpHALSHELEToTELISHA GEDOLAwQETANAqVI
RpIPEHAoYERAH BEN YOMOqTIVoZAQEF GADOLuQATANqRQApINORhLETTER ALEFs WITH MAPIQyPATAHyQAMATSqTERNAT
IVE AYINbaPLUS SIGNpYINoBETr WITH DAGESHxRAFEoDALETt WITH DAGESHoFINAL KAFx WITH DAGESHuMEMuNUNuP
Ew WITH DAGESHuTSADIoGIMELt WITH DAGESHoHEq WITH MAPIQqToKAFr WITH DAGESHxRAFEoLAMEDt WITH DAGESH
oMEMr WITH DAGESHoNUNr WITH DAGESHoPEq WITH DAGESHwRAFEoQOFr WITH DAGESHoRESHs WITH DAGESHoSAMEKH
u WITH DAGESHpHINs WITH DAGESHbe AND SHIN DOTbkIN DOTySHIN DOTzIN DOToTAVr WITH DAGESHpETr WITH D
AGESHpSADIt WITH DAGESHoVAVr WITH DAGESHxHOLAMoWIDE ALEFtDALETtFINAL MEMtHEtKAFtLAMEDtRESHtTAVoYO
Dr WITH DAGESHxHIRIQoZAYINt WITH DAGESHiIGATURE ALEF LAMEDqYIDDISH DOUBLE VAVbfYODyVAV YODyYOD YO
D PATAHhMARK LOWER DOTmMASORA CIRCLEmUPPER DOThPOINT DAGESH OR MAPIQnHATAF PATAHtQAMATStSEGOLoIRI
QoOLAMs HASER FOR VAVnJUDEO-SPANISH VARIKAnMETEGnPATAHnQAMATSt QATANoUBUTSnRAFEnSEGOLoHEVApIN DOT
oIN DOTnTSEREiUNCTUATION GERESHwSHAYIMtMAQAFtNUN HAFUKHAtPASEQtSOF PASUQhYOD TRIANGLEcDGEHOGcLICO
PTERdLSCHREIBER PAUSE SYMBOLdM SYMBOLeET WITH WHITE CROSScNTAIGANA LETTER A-1u2u3uWOsE-1u2u3u4u5u
6sHA-1w0w1v2v3v4v5v6v7v8v9tE-1v2v3v4v5v6v7tI-1v2v3v4v5v6v7tO-1v2v3v4v5v6v7v8tU-1v2v3sI-1u2u3u4sKA
-1w0w1v2v3v4v5v6v7v8v9vKEtE-1v2v3v4v5v6tI-1v2v3v4v5v6v7v8tO-1v2v3vKItU-1v2v3v4v5v6v7sMA-1v2v3v4v5
v6v7tE-1v2vMAtI-1v2v3v4v5v6v7tO-1v2v3v4v5v6tU-1v2v3v4sN-MU-MO-1ba2tA-1v2v3v4v5v6v7v8v9tE-1v2v3v4v
5v6vKOtI-1v2v3v4v5v6v7vTEtO-1v2v3v4v5tU-1v2v3sO-1u2u3sRA-1v2v3v4tE-1v2v3v4tI-1v2v3v4v5v6v7tO-1v2v
3v4v5v6tU-1v2v3v4v5v6sSA-1v2v3v4v5v6v7v8tE-1v2v3v4v5tI-1v2v3v4v5v6tO-1v2v3v4v5v6v7tU-1v2v3v4v5v6v
7v8sTA-1v2v3v4tE-1v2v3v4v5v6v7v8v9tI-1v2v3v4v5v6v7tO-1v2v3v4v5v6vRAtU-1v2v3v4vTOsU-1u2u3u4u5sWA-1
v2v3v4v5tE-1v2v3v4tI-1v2v3v4v5tO-1v2v3v4v5v6v7sYA-1v2v3v4v5vYOtO-1v2v3v4v5v6tU-1v2v3v4cRBdMITIA
N CONJUGATE MATRIXcXAGRAM FOR ABUNDANCEoFTER COMPLETIONoPPROACHnBEFORE COMPLETIONoITING THROUGHoR
EAKTHROUGHnCOMING TO MEETpNFLICTqTEMPLATIONnDARKENING OF THE LIGHToECREASEpLIVERANCEpVELOPMENToIF
FICULTY AT THE BEGINNINGpSPERSIONoURATIONnENTHUSIASMnFELLOWSHIPoOLLOWINGnGATHERING TOGETHERoRACEp
EAT POSSESSIONvWERuREPONDERANCEtTAMINGnHOLDING TOGETHERnINCREASEpFLUENCEpNER TRUTHqOCENCEnLIMITAT
IONnMODESTYpUTH CORNERSnOBSTRUCTIONoPPOSITIONqRESSIONnPEACEoROGRESSoUSHING UPWARDnRETREATqURNpVOL
UTIONnSMALL PREPONDERANCEtTAMINGoPLITTING APARToTANDSTILLnTHE ABYSMAL WATERsRMYtOUSING THUNDERrCA
ULDRONsLINGING FIREsREATIVE HEAVENrFAMILYrGENTLE WINDrJOYOUS LAKErKEEPING STILL MOUNTAINrMARRYIN
G MAIDENrRECEPTIVE EARTHrWANDERERsELLoREADINGnWAITINGoORK ON THE DECAYEDnYOUTHFUL FOLLYbIBISCUScG
H BRIGHTNESS SYMBOLfVOLTAGE SIGNe-HEELED SHOEfSPEED TRAINq WITH BULLET NOSEcKING BOOTcNDU TEMPLEc
PPOPOTAMUScRAGANA DIGRAPH YORIjITERATION MARKjLETTER ArRCHAIC WUyYEqBArErIrOrUqDArErIrOrUqEqGArEr
IrOrUqHArErIrOrUqIqKArErIrOrUqMArErIrOrUqNrArErIrOrUqOqPArErIrOrUqRArErIrOrUqSArErIrMALL AwEwIwKA
xEwOwTUwUwWAxExIxOwYAxOxUrOrUqTArErIrOrUqUqVUqWArErIrOqYArOrUqZArErIrOrUjVOICED ITERATION MARKcST
ORIC SITEbOCHOcLEdLOW QUILT SQUARE ORNAMENTbc IN BLACK SQUAREcMOTHETICcNEY POTfBEEcOKcRIZONTAL BA
RmLACK HEXAGONrOCTAGONlELLIPSISlLINE EXTENSIONlMALE WITH STROKE SIGNlONE EIGHTH BLOCK-1358bc2bc3b
c4bc5bc6bc7lSCAN LINE-1v3v7v9lTAB KEYmRAFFIC LIGHTdSEf FACEgRACINGcSPITALcT BEVERAGEeDOGePEPPEReS
PRINGSdELcURGLASSj WITH FLOWING SANDdSEf BUILDINGoSgWITH GARDENbRYVNIA SIGNbUGGING FACEcNDRED POI
NTS SYMBOLcSHED FACEcTbYGIEAcPHENg BULLEThWITH DIAERESISgATION POINTdODIASTOLEcSTERESIS SYMBOL"),
  ('I', "
aI LOVE YOU HAND SIGNbCE CREAMfUBEeHOCKEY STICK AND PUCKeSKATEbDENTICAL TOm AND SLANTED PARALLELk
WITH DOT ABOVEgFICATION CARDdOGRAPHIC ANNOTATION BOTTOM MARKxEARTH MARKxFIRST MARKyOUR MARKbbTH M
ARKxHEAVEN MARKxLINKING MARKxMAN MARKyIDDLE MARKxONE MARKxREVERSE MARKxSECOND MARKxTHIRD MARKzRE
E MARKyOP MARKyWO MARKmCLOSING MARKnOMMAmDEPARTING TONE MARKoSCRIPTION CHARACTER ABOVE TO BELOWbr
MIDDLE AND BELOWbiFULL SURROUNDbiLEFT TO MIDDLE AND RIGHTbqRIGHTbiOVERLAIDbiSURROUND FROM ABOVEbw
BELOWbwLEFTbxOWER LEFTbwUPPER LEFTccRIGHTmENTERING TONE MARKmFULL STOPmHALF FILL SPACEmITERATIO
N MARKmLEVEL TONE MARKmNUMBER ZEROmRISING TONE MARKmSPACEmTALLY MARK FIVEyOURxONExTHREEyWOnELEGRA
PH LINE FEED SEPARATOR SYMBOLwSYMBOL FOR APRILbiUGUSTbhDAY EIGHTbqEENbmLEVENblFIFTEENbnVEbmOURbpT
EENblNINEbpTEENblONEblSEVENbqTEENbmIXboTEENblTENbmHIRTEENbqYbr-ONEbnREEbmWELVEboNTYbr-EIGHTbsFIVE
btOURbsNINEbsONEbsSEVENbtIXbsTHREEbtWObnObiECEMBERbhFEBRUARYbhHOUR EIGHTbrEENbnLEVENbmFIFTEENboVE
bnOURbqTEENbmNINEbqTEENbmONEbmSEVENbrTEENbnIXbpTEENbmTENbnHIRTEENboREEbnWELVEbpNTYbs-FOURbtONEbtT
HREEbuWOboObmZERObhJANUARYbiULYbjNEbhMARCHbjYbhNOVEMBERbhOCTOBERbhSEPTEMBERmVARIATION INDICATORbM
AGE OFi OR APPROXIMATELY EQUAL TOcPdERIAL ARAMAIC LETTER ALEPHzYINyBETHyDALETHyGIMELyHEbaTHyKAPHy
LAMEDHyMEMyNUNyPEyQOPHyRESHySADHEbaMEKHzHINyTAWzETHyWAWyYODHyZAYINrNUMBER ONEbb HUNDREDbcTHOUSAND
yTENbb THOUSANDzHREEzWENTYbaOrSECTION SIGNbNBOX TRAYcCOMING ENVELOPEfPLETE INFINITYdREASE FONT SI
ZE SYMBOLiS ASfMENTcDEX POINTING AT THE VIEWERdIAN RUPEE SIGNeC SIYAQ ALTERNATE LAKH MARKmFRACTIO
N ONE HALFzQUARTERvTHREE QUARTERSmLAKH MARKmNUMBER ALTERNATE ONEbdTEN THOUSANDbeWOtEIGHTy HUNDRED
zTHOUSANDyYz THOUSANDtFIFTYy THOUSANDvVEx HUNDREDyTHOUSANDuORTYy THOUSANDvURx HUNDREDyTHOUSANDtKA
RORyANtLAKHxANtNINEx HUNDREDyTHOUSANDxTYz THOUSANDtONEw HUNDREDxTHOUSANDtPREFIXED EIGHTbcFIVEbdOU
RbcNINEbcONEbcSEVENbdIXbcTHREEbdWOtSEVENy HUNDREDzTHOUSANDyTYba THOUSANDuIXw HUNDREDxTHOUSANDwTY
y THOUSANDtTENw THOUSANDuHIRTYz THOUSANDvREEy HUNDREDzTHOUSANDuWENTYz THOUSANDvOw HUNDREDxTHOUSAN
DmPLACEHOLDERmRUPEE MARKcFINITYi NEGATED WITH VERTICAL BARdORMATION DESK PERSONmSOURCEcHIBIT ARAB
IC FORM SHAPINGiSYMMETRIC SWAPPINGcPUT SYMBOL FOR LATIN CAPITAL LETTERSxLETTERSxSMALL LETTERSrNUM
BERSrSYMBOLScSCRIPTIONAL PAHLAVI LETTER ALEPHbdBETHbdDALETHbdGIMELbdHEbfTHbdKAPHbdLAMEDHbdMEM-QOP
HbdNUNbdPEbdSADHEbfMEKHbeHINbdTAWbeETHbdWAW-AYIN-RESHbdYODHbdZAYINwNUMBER FOURbdONEbg HUNDREDbhTH
OUSANDbdTENbeHREEbeWENTYbfOqRTHIAN LETTER ALEPHbfYINbeBETHbeDALETHbeGIMELbeHEbgTHbeKAPHbeLAMEDHbe
MEMbeNUNbePEbeQOPHbeRESHbeSADHEbgMEKHbfHINbeTAWbfETHbeWAWbeYODHbeZAYINxNUMBER FOURbeONEbh HUNDRED
biTHOUSANDbeTENbfHREEbfWENTYbgOdERTION SYMBOLcTEGRALi AROUND A POINT OPERATORkVERAGE WITH SLASHjE
XTENSIONjWITH DOUBLE STROKEoINTERSECTIONoLEFTWARDS ARROW WITH HOOKoOVERBARoTIMES SIGNoUNDERBARqIO
NeRCALATEfIOR PRODUCTfLINEAR ANNOTATION ANCHORxSEPARATORxTERMINATORgOCKED FEMALE AND MALE SIGNfRO
BANGfSECTIONm ABOVE BAR ABOVE UNIONtUNIONnBESIDE AND JOINED WITH INTERSECTIONnWITH DOTsLOGICAL AN
DsOVERBARcVERSE BULLETiCHECK MARKnER BOARD FILLiDOWNWARDS ARROW WITH TIP LEFTWARDSiMEDIUM SHADEiW
HITE CIRCLEfTED INTERROBANGjLAZY SkOW KAVYKAt WITH KAVYKA ABOVEjOHM SIGNjPENTAGRAMjUNDERTIEdISIBL
E PLUSkSEPARATORkTIMESbZAKAYA LANTERN"),
  ('J', "
aJACK-O-LANTERNcPANESE BANK SYMBOLjCASTLEjDOLLSjGOBLINjINDUSTRIAL STANDARD SYMBOLjOGREjPOST OFFIC
EjSYMBOL FOR BEGINNERcRcVANESE CONSONANT SIGN CAKRAyKERETyPENGKALjDIGIT EIGHTpFIVEqOURpNINEpONEpS
EVENqIXpTHREEqWOpZEROjLEFT RERENGGANlTTER ArIqBAs MURDAqCAs MURDAqDAs MAHAPRANArDAt MAHAPRANAqEqG
As MURDAqHAqIr KAWIrIqJAs MAHAPRANAqKAs MURDAtSASAKqLAqMAqNAs MURDArGAt LELETz RASWADIrYAt MURDAq
OqPAs CEREKtMURDAqRAs AGUNGqSAs MAHAPRANAuURDAqTAs MURDArTAt MAHAPRANAqUqWAqYAjPADA ADEGs ADEGpND
APoISEN-ISENoLINGSApUHURqNGSIoMADYAoPANGKATpISELEHoTIRTA TUMETESoWINDUlNGKONnRANGKEPjRIGHT RERENG
GANjSIGN CECAKt TELUoLAYARoPANYANGGAoWIGNYANjTURNED PADA PISELEHjVOWEL SIGN DIRGA MUREuPEPETuSUKU
y MENDUTuTALINGwRUNGvOLONGuWULUy MELIKbEANSbIGSAW PUZZLE PIECEbOINcYSTICKbUGGLINGcNOcPITER"),
  ('K', "
aKAABAcITHI ABBREVIATION SIGNhDANDAiOUBLE DANDAoSECTION MARKhENUMERATION SIGNhLETTER ApApIpUoBApH
AoCApHAoDApDAqDHAqHApHAoEoGApHAoHAoIpIoJApHAoKApHAoLAoMAoNApGApNApYAoOoPApHAoRApHAoSApHApSAoTApHA
pTAqHAoUpUoVAoYAhNUMBER SIGNs ABOVEhSECTION MARKiIGN ANUSVARAmCANDRABINDUmNUKTAmVIRAMAoSARGAhVOWE
L SIGN AAtItUsEsItIsOsUtUsVOCALIC RcNGAROOeXI RADICAL AGAINqNDqRRIVEsOWqXEpBADGERrMBOOqEANqIGrRDr
TTERqLACKrOODrUEqOATrDYrLT OF CLOTHrNErWqRANCHrISTLErUSHpCARTrULDRONrVEqHILDqITYqLANsWrIFFrOTHESq
OLORrMPARErRPSErVERrWpDEATHrERqIPPERrSHsTINGUISHrVINATIONqO NOTrGrORrTsTED CLIFFwTENTrUBLE XrWN B
OXqRAGONrUMrYpEARsTHrTqIGHTqMBROIDERYqNCLOSURErTERqVENtINGqYEpFACErNGrTHERqEATHERqIELDrGHTrRErSHq
LUTErYqOOTqRAGRANTrOGqURpGATEqHOSTqOr SLOWLYrLDqRAINsSSpHAIRrLBERDsF TREE TRUNKrNDqEADsRTrMPqIDIN
G ENCLOSUREqOOKrRNsSEpICEqNCHrSECTpJADErRpKNIFEpLACKrMEqEAFsTHERrEKrGSqIDrFErNEqONGt STRIDEpMANqE
ATrLONqILLETrNISTERqOONrRNINGsTARrUNDtTAINsTHpNETqOSErTpOLDqNEsSELFqPEN BOXrPOSEpPIGqLOWqOWERqRIV
ATErOFOUNDpRAINrPrTqEDqICErGHT OPEN BOXrVERqOOFqUNpSACRIFICIAL WINErLTrYqCHOLARrRIPTqEALrCONDrErL
FqHEEPsLLrOOTsRT TAILED BIRDwHREADqICKNESSrLKqKINqLASHsVErICEqMALLqNOUTqOUNDqPEARsECHrIRITrOONrRO
UTqQUAREqTANDrEAMsPrONEsPtPINGqUNqWEETpTABLErLLrNNED LEATHERqENqIGERrLEqONGUErOTHqRACKrEErIPODqUR
BANsTLEqWOs HANDSpUSEpVALLEYqILLAGEpWALKt ENCLOSURErTERqEAPONrSTqHEATrITEqINDsEqOMANrRKqRAPrONGpY
ELLOWdNADA AI LENGTH MARKiDIGIT EIGHToFIVEpOURoNINEoONEoSEVENpIXoTHREEpWOoZEROiLENGTH MARKkTTER A
qAqIqUpBAqHApCAqHApDAqDArHAqHApEqEpFApGAqHApHApIqIpJAqHApKAqHApLAqLArLApMApNArKAARA POLLUqGAqNAqY
ApOqOpPAqHApRAqRApSAqHAqSApTAqHAqTArHApUqUpVAqOCALIC LyLxRyRpYAiSIGN ANUSVARAoVAGRAHAnCANDRABINDU
nJIHVAMULIYAnNUKTAnSIDDHAMoPACING CANDRABINDUnUPADHMANIYAnVIRAMApSARGAiVOWEL SIGN AAuIuUtEuEtIuIt
OuOtUuUtVOCALIC LbcLbbRbcRcTAKANA DIGRAPH KOTOjITERATION MARKjLETTER ArRCHAIC EyWUyYEzIqBArErIrOr
UqDArErIrOrUqEqGArErIrOrUqHArErIrOrUqIqKArErIrOrUqMArErIsNNAN NASALIZED TONE-1bm2bm3bm4bm5bm7bm8x
TONE-2bc3bc4bc5bc7bc8rOrUqNrArErIrOrUqOqPArErIrOrUqRArErIrOrUqSArErIrMALL AwEwHAxExIxOxUwIwKAxExU
wMUwNxUwOwRAxExIxOxUwSIxUwTOxUwUwWAxExIxOwYAxOxUrOrUqTArErIrOrUqUqVArErIrOrUqWArErIrOqYArOrUqZArE
rIrOrUjMIDDLE DOTjVOICED ITERATION MARKi-HIRAGANA DOUBLE HYPHENsPROLONGED SOUND MARKsSEMI-VOICE
D SOUND MARKsVOICED SOUND MARKcYAH LI DIGIT EIGHTpFIVEqOURpNINEpONEpSEVENqIXpTHREEqWOpZEROjLETTE
R AqBAqCAqDAqGAqHArTAqIqKArHAqLAqMAqNArGArYAqOErOqPArHAqRAqSArHAqTArHAqVAqWAqYAqZAjSIGN CWIoSHYAj
TONE CALYAt PLOPHUoPLOPHUjVOWEL EqEpOpUqEbELVIN SIGNcYdBOARDi AND MOUSEdCAP TENbHAROSHTHI DIGIT F
OURrONErTHREEsWOlFRACTION ONE HALFlLETTER AsBAtHAsCAtHAsDAtDAuHAtHAsGAtHAsHAsJAsKAtHAtKAsLAsMAsNA
tNAtYAsPAtHAsRAsSAtHAtSAsTAtHAtTAuHAuTAvHAsVAtHAsYAsZAlNUMBER ONE HUNDREDwTHOUSANDsTENtWENTYlPUNC
TUATION CIRCLEyRESCENT BARxDANDAyOTzUBLE DANDAxLINESyOTUSxMANGALAMxSMALL CIRCLElSIGN ANUSVARAqBA
R ABOVEqCAUDAqDOT BELOWsUBLE RING BELOWqVISARGAlVIRAMAmOWEL LENGTH MARKrSIGN EwIwOwUwVOCALIC RcIT
AN SMALL SCRIPT CHARACTER-18B00bi1bi2bi3bi4bi5bi6bi7bi8bi9biAbiBbiCbiDbiEbiFbh10bi1bi2bi3bi4bi5bi
6bi7bi8bi9biAbiBbiCbiDbiEbiFbh20bi1bi2bi3bi4bi5bi6bi7bi8bi9biAbiBbiCbiDbiEbiFbh30bi1bi2bi3bi4bi5b
i6bi7bi8bi9biAbiBbiCbiDbiEbiFbh40bi1bi2bi3bi4bi5bi6bi7bi8bi9biAbiBbiCbiDbiEbiFbh50bi1bi2bi3bi4bi5
bi6bi7bi8bi9biAbiBbiCbiDbiEbiFbh60bi1bi2bi3bi4bi5bi6bi7bi8bi9biAbiBbiCbiDbiEbiFbh70bi1bi2bi3bi4bi
5bi6bi7bi8bi9biAbiBbiCbiDbiEbiFbh80bi1bi2bi3bi4bi5bi6bi7bi8bi9biAbiBbiCbiDbiEbiFbh90bi1bi2bi3bi4b
i5bi6bi7bi8bi9biAbiBbiCbiDbiEbiFbhA0bi1bi2bi3bi4bi5bi6bi7bi8bi9biAbiBbiCbiDbiEbiFbhB0bi1bi2bi3bi4
bi5bi6bi7bi8bi9biAbiBbiCbiDbiEbiFbhC0bi1bi2bi3bi4bi5bi6bi7bi8bi9biAbiBbiCbiDbiEbiFbhD0bi1bi2bi3bi
4bi5bi6bi7bi8bi9biAbiBbiCbiDbiEbiFbhE0bi1bi2bi3bi4bi5bi6bi7bi8bi9biAbiBbiCbiDbiEbiFbhF0bi1bi2bi3b
i4bi5bi6bi7bi8bi9biAbiBbiCbiDbiEbiFbgC00bi1bi2bi3bi4bi5bi6bi7bi8bi9biAbiBbiCbiDbiEbiFbh10bi1bi2bi
3bi4bi5bi6bi7bi8bi9biAbiBbiCbiDbiEbiFbh20bi1bi2bi3bi4bi5bi6bi7bi8bi9biAbiBbiCbiDbiEbiFbh30bi1bi2b
i3bi4bi5bi6bi7bi8bi9biAbiBbiCbiDbiEbiFbh40bi1bi2bi3bi4bi5bi6bi7bi8bi9biAbiBbiCbiDbiEbiFbh50bi1bi2
bi3bi4bi5bi6bi7bi8bi9biAbiBbiCbiDbiEbiFbh60bi1bi2bi3bi4bi5bi6bi7bi8bi9biAbiBbiCbiDbiEbiFbh70bi1bi
2bi3bi4bi5bi6bi7bi8bi9biAbiBbiCbiDbiEbiFbh80bi1bi2bi3bi4bi5bi6bi7bi8bi9biAbiBbiCbiDbiEbiFbh90bi1b
i2bi3bi4bi5bi6bi7bi8bi9biAbiBbiCbiDbiEbiFbhA0bi1bi2bi3bi4bi5bi6bi7bi8bi9biAbiBbiCbiDbiEbiFbhB0bi1
bi2bi3bi4bi5bi6bi7bi8bi9biAbiBbiCbiDbiEbiFbhC0bi1bi2bi3bi4bi5bi6bi7bi8bi9biAbiBbiCbiDbiEbiFbhD0bi
1bi2bi3bi4bi5uFILLERcMER CURRENCY SYMBOL RIELgDIGIT EIGHTmFIVEnOURmNINEmONEmSEVENnIXmTHREEnWOmZER
OgINDEPENDENT VOWEL LYbaYyQAAbaIbaQbaUzEzIbaIzOO TYPE ONEbhTWOzUbaKbaUbbVyRYbaYgLETTER BAnCAoHApO
oOnDAoOnHAnKAoHApOoOnLAoOnMOnNGOoNOoOoYOnPHApOoOnQAnROnSAoHAoSOnTAoHApOoOoTHAqOnVOnYOgSIGN AHSDAm
TTHACANmVAKRAHASANYAlBANTOCnRIYOOSANnTHAMASATmEYYALlCAMNUC PII KUUHmOENGlKAKABATmHANmOOMUUTlLEK T
OOlMUUSIKATOANlNIKAHITlPHNAEK MUANlREAHMUKmOBATlSAMYOK SANNYAlTOANDAKHIATmRIISAPlVIRIAMlYUUKALEAP
INTUhYMBOL BEI KOETrROCoUON KOETsROCnDAP KOETrROCq-BEI KOETvROCsUON KOETwROCrMUOY KOETwROCrPII KO
ETvROCsRAM KOETwROCnLEK ATTAK BEIyUONxMUOYxPIIyRAMbb-BEIbdUONbcMUOYbcPIIxSONnMUOY KOETsROCnPATHAM
ASAToII KOETrROCoRAM KOETsROCr-BEI KOETwROCtUON KOETxROCsMUOY KOETxROCsPII KOETwROCnTUTEYASATgVOW
EL INHERENT AAwQmSIGN AAsEsIsUrErIsEsIrOEsOrUsAsUrYsAsYcOJKI ABBREVIATION SIGNhDANDAiOUBLE DANDAo
SECTION MARKhLETTER ApApIpUoBApBApHAoCApHAoDApDAqDAqHApHAoEoGApGApHAoHAoIoJApJAoKApHAoLApLAoMAoNA
pGApNApYAoOoPApHAoRAoSAoTApHApTAqHAoUoVAoYAhSECTION MARKiIGN ANUSVARAmNUKTAmSHADDAnUKUNmVIRAMAhVO
WEL SIGN AAtItUsEsItIsOsUhWORD SEPARATORcUDAWADI DIGIT EIGHTqFIVErOURqNINEqONEqSEVENrIXqTHREErWOq
ZEROkLETTER AsAsIsUrBAsBAsHArCAsHArDAsDAtDAtHAsHArErGAsGAsHArHArIsIrJAsHAsJArKAsHArLArMArNAsGAsNA
sYArOrPAsHArRAsRArSAsHArTAsHAsTAtHArUsUrVArYAkSIGN ANUSVARApNUKTApVIRAMAkVOWEL SIGN AAwIwUvEvIwIv
OvUwUbIMONOcP SIGNcSSe MARKeING CAT FACE WITH CLOSED EYESiFACEm WITH CLOSED EYESsSMILING EYEScTEc
WIFRUITbNEELING PERSONcOTbOALAcREAN STANDARD SYMBOLbRONOS"),
  ('L', "
aL B BAR SYMBOLbAB COATdELcCROSSE STICK AND BALLcDDERdY BEETLEcNGUAGE TAGcO CANCELLATION MARKeDIG
IT EIGHTkFIVElOURkNINEkONEkSEVENlIXkTHREElWOkZEROeELLIPSISeHO MOhNOeKO LAeLETTER BOlCOlDOlFO FAYp
ONoSUNGoTAMlHO SUNGoTAMlKHMU GOqNYOnO SUNGpTAMmOlLOn LINGpOOTlMOlNGOmOmYOlOlPALI BHAqCHAqDDAsHArH
AqGHAqJHAqLLAqNNArYAqTTAsHAmHO SUNGpTAMmOlROlSANSKRIT SHAvSAmO SUNGoTAMlTHO SUNGpTAMmOlWOlYOeNIGG
AHITAeSEMIVOWEL SIGN LOtNYOfIGN PALI VIRAMAeTONE MAI CATAWAnEKnTHOoIeVOWEL SIGN AqAqIqMqYpEqIpIqI
pMAI KANuONpOpUqUpYqYcRGE BLUE CIRCLElDIAMONDlSQUAREhROWN CIRCLEmSQUAREgCIRCLEgDOWN TACKgGREEN CI
RCLEmSQUAREgLEFT TRIANGLE OPERATORgONE DOT OVER TWO DOTS PUNCTUATIONkRING OVER TWO RINGS PUNCTUAT
IONhRANGE CIRCLEnDIAMONDnSQUAREgPURPLE CIRCLEnSQUAREgRED CIRCLEkSQUAREgTRIPLE VERTICAL BAR OPERAT
ORhWO DOTS OVER ONE DOT PUNCTUATIONkRINGS OVER ONE RING PUNCTUATIONgUP TACKgYELLOW CIRCLEnSQUAREf
R THANl OR EQUAL TOdI SIGNcST QUARTER MOONr SYMBOLsWITH FACEcTIN CAPITAL LETTER A WITH BREVEbh AN
D ACUTEbmDOT BELOWbmGRAVEbmHOOK ABOVEbmTILDEbcCARONbdIRCUMFLEX AND ACUTEbrDOT BELOWbrGRAVEbrHOO
K ABOVEbrTILDEbcDIAERESIS AND MACRONbdOT ABOVEbl AND MACRONbgBELOWbeUBLE GRAVEbcHOOK ABOVEbcINVER
TED BREVEbcMACRONbcOGONEKbcRING ABOVE AND ACUTEbhBELOWbcSTROKEwAwE WITH ACUTEbdMACRONwFRICAN DwLP
HAwNGLICANA WwOwUwVx WITH HORIZONTAL BARwYvB WITH DOT ABOVEbgBELOWbcFLOURISHbcHOOKbcLINE BELOWbcS
TROKEbcTOPBARwETAwROKEN LvC WITH ACUTEbcBARbcCARONbdEDILLA AND ACUTEbdIRCUMFLEXbcDOT ABOVEbcHOOKb
cPALATAL HOOKbcSTROKEwHIwLOSED INSULAR GwONwUATRILLObe WITH COMMAvD WITH CARONbdEDILLAbdIRCUMFLE
X BELOWbcDOT ABOVEbgBELOWbcHOOKbcLINE BELOWbcSHORT STROKE OVERLAYbdMALL LETTER Zbq WITH CARONbdTR
OKEbcTOPBARwZx WITH CARONvE WITH BREVEbcCARONbdEDILLAbj AND BREVEbdIRCUMFLEX AND ACUTEbrDOT BELOW
brGRAVEbrHOOK ABOVEbrTILDEbnBELOWbcDOT ABOVEbgBELOWbeUBLE GRAVEbcHOOK ABOVEbcINVERTED BREVEbcMACR
ONbi AND ACUTEbnGRAVEbcOGONEKbcSTROKEbcTILDEbh BELOWwGYPTOLOGICAL AINbkLEFwNGwSHwTwZHy REVERSEDzW
ITH CARONvF WITH DOT ABOVEbcHOOKbcSTROKEvG WITH ACUTEbcBREVEbcCARONbdEDILLAbdIRCUMFLEXbcDOT ABOVE
bcHOOKbcMACRONbcOBLIQUE STROKEbcSTROKEwAMMAwHAwLOTTAL AbdIbdSTOPbdUvH WITH BREVE BELOWbcCARONbdED
ILLAbdIRCUMFLEXbcDESCENDERbdIAERESISbdOT ABOVEbgBELOWbcHOOKbcSTROKEwALF HwENGwWAIRvI WITH BREVEbc
CARONbcDIAERESIS AND ACUTEbdOT ABOVEbgBELOWbeUBLE GRAVEbcHOOK ABOVEbcINVERTED BREVEbcMACRONbcOGON
EKbcSTROKEbcTILDEbh BELOWwNSULAR DbdFbdGbdRbdSbdTwOTAwSvJ WITH CIRCUMFLEXbdROSSED-TAILbcSTROKEv
K WITH ACUTEbcCARONbdEDILLAbcDESCENDERbdIAGONAL STROKEbdOT BELOWbcHOOKbcLINE BELOWbcOBLIQUE STROK
EbcSTROKEbi AND DIAGONAL STROKEvL WITH ACUTEbcBARbdELTbcCARONbdEDILLAbdIRCUMFLEX BELOWbcDOT BELOW
bl AND MACRONbeUBLE BARbcHIGH STROKEbcLINE BELOWbcMIDDLE DOTbjTILDEbcSMALL LETTER JbdTROKEwJvM WI
TH ACUTEbcDOT ABOVEbgBELOWbcHOOKwIDDLE SCOTS Sbb-WELSH LLbiVvN WITH ACUTEbcCARONbdEDILLAbdIRCUMFL
EX BELOWbcDESCENDERbdOT ABOVEbgBELOWbcGRAVEbcLEFT HOOKbdINE BELOWbdONG RIGHT LEGbcOBLIQUE STROKEb
cSMALL LETTER JwJvO WITH BREVEbcCARONbdIRCUMFLEX AND ACUTEbrDOT BELOWbrGRAVEbrHOOK ABOVEbrTILDEbc
DIAERESIS AND MACRONbdOT ABOVEbl AND MACRONbgBELOWbeUBLE ACUTEbjGRAVEbcHOOK ABOVEbeRNbg AND ACUTE
blDOT BELOWblGRAVEblHOOK ABOVEblTILDEbcINVERTED BREVEbcLONG STROKE OVERLAYbeOPbcMACRONbi AND ACUT
EbnGRAVEbdIDDLE TILDEbcOGONEKbi AND MACRONbcSTROKE AND ACUTEbcTILDE AND ACUTEbmDIAERESISbmMACRONw
IwLD POLISH OwMEGAwOwPEN EbaOwUvP WITH ACUTEbcDOT ABOVEbcFLOURISHbcHOOKbcSQUIRREL TAILbdTROKEbi T
HROUGH DESCENDERvQ WITH DIAGONAL STROKEbcSTROKE THROUGH DESCENDERvR ROTUNDAxWITH ACUTEbcCARONbdED
ILLAbcDOT ABOVEbgBELOWbl AND MACRONbeUBLE GRAVEbcINVERTED BREVEbcLINE BELOWbcOBLIQUE STROKEbcSTRO
KEbcTAILwEVERSED C WITH DOTbeEbeHALF HbeOPEN EwUM ROTUNDAvS WITH ACUTEbh AND DOT ABOVEbcCARONbh A
ND DOT ABOVEbdEDILLAbdIRCUMFLEXbdOMMA BELOWbcDOT ABOVEbgBELOWbl AND DOT ABOVEbcHOOKbcOBLIQUE STRO
KEbcSHORT STROKE OVERLAYbdWASH TAILwALTILLOwCHWAxRIPT GwHARP SwIGMOID SwMALL CAPITAL IbbQ WITH HO
OK TAILvT WITH CARONbdEDILLAbdIRCUMFLEX BELOWbdOMMA BELOWbcDIAGONAL STROKEbdOT ABOVEbgBELOWbcHOOK
bcLINE BELOWbcRETROFLEX HOOKbcSTROKEwHORN WITH STROKEbm THROUGH DESCENDERwONE FIVEbaSIXbaTWOwRESI
LLOwURNED AbdLPHAbcHbcINSULAR GbcKbcLbcMbcTbcVwZvU BARxWITH BREVEbcCARONbdIRCUMFLEX BELOWbcDIAERE
SIS AND ACUTEbqCARONbqGRAVEbqMACRONbmBELOWbdOT BELOWbeUBLE ACUTEbjGRAVEbcHOOK ABOVEbeRNbg AND ACU
TEblDOT BELOWblGRAVEblHOOK ABOVEblTILDEbcINVERTED BREVEbcMACRONbi AND DIAERESISbcOGONEKbcRING ABO
VEbcSTROKEbcTILDEbh AND ACUTEbiBELOWwPSILONvV WITH DIAGONAL STROKEbdOT BELOWbcHOOKbcTILDEwENDwISI
GOTHIC ZwOLAPUK AEbdOEbdUEwYvW WITH ACUTEbcCIRCUMFLEXbcDIAERESISbdOT ABOVEbgBELOWbcGRAVEbcHOOKwYN
NvX WITH DIAERESISbdOT ABOVEvY WITH CIRCUMFLEXbcDIAERESISbdOT ABOVEbgBELOWbcGRAVEbcHOOKbg ABOVEbc
LOOPbcMACRONbcSTROKEbcTILDEwOGHvZ WITH ACUTEbcCARONbdIRCUMFLEXbcDESCENDERbdOT ABOVEbgBELOWbcHOOKb
cLINE BELOWbcPALATAL HOOKbcSTROKEbdWASH TAILpIGATURE IJxOEhROSSgEPIGRAPHIC LETTER ARCHAIC MyI LON
GAzNVERTED MyREVERSED FbhPySIDEWAYS IgLETTER AINoLVEOLAR CLICKnBIDENTAL PERCUSSIVEpLABIAL CLICKwP
ERCUSSIVEnDENTAL CLICKnGLOTTAL STOPz WITH STROKEnINVERTED GLOTTAL STOPbi WITH CURLboSTROKEnLATERA
L CLICKnPHARYNGEAL VOICED FRICATIVEnRETROFLEX CLICKbc WITH RETROFLEX HOOKpVERSED ESH LOOPwGLOTTA
L STOP WITH STROKEnSINOLOGICAL DOToMALL CAPITAL AbcEbbBbcARRED BbbCbbDbbEbcTHbcZHbbFbbGbc WITH HO
OKbbHbbIbcNVERTED RbbJbbKbbLbc WITH BELTbiSTROKEbbMbbNbbObcEbcPEN ObcUbbPbbQbbRbc WITH RIGHT LEGb
cEVERSED NbkRbcUMbbSbbTbcURNED EbiGbiKbiMbiRbbUbbVbbWbbYbbZoTRETCHED Cy WITH CURLnTWO WITH STROKE
nVOICED LARYNGEAL SPIRANTnWYNNnYRgSMALL CAPITAL LETTER I WITH STROKEbbU WITH STROKEmLETTER A REVE
RSED-SCHWAvWITH BREVEbf AND ACUTEbkDOT BELOWbkGRAVEbkHOOK ABOVEbkTILDEbaCARONbbIRCUMFLEX AND ACUT
EbpDOT BELOWbpGRAVEbpHOOK ABOVEbpTILDEbaDIAERESIS AND MACRONbbOT ABOVEbj AND MACRONbeBELOWbcUBL
E GRAVEbaHOOK ABOVEbaINVERTED BREVEbaMACRONbaOGONEKbaRETROFLEX HOOKbbIGHT HALF RINGbcNG ABOVE AN
D ACUTEbfBELOWbaSTROKEuAuE WITH ACUTEbbMACRONuLPHAy WITH RETROFLEX HOOKuNGLICANA WuOuUuVv WITH HO
RIZONTAL BARuYtB WITH DOT ABOVEbeBELOWbaFLOURISHbaHOOKbaLINE BELOWbaMIDDLE TILDEbaPALATAL HOOKbaS
TROKEbaTOPBARuARRED ALPHAbaEbaOvSELINE ESHuETAuLACKLETTER EbfObg WITH STROKEuOTTOM HALF OuROKEN L
tC WITH ACUTEbaBARbaCARONbbEDILLA AND ACUTEbbIRCUMFLEXbbURLbaDOT ABOVEbaHOOKbaPALATAL HOOKbaRETRO
FLEX HOOKbaSTROKEuHIw WITH LOW LEFT SERIFbgRIGHT RINGuLOSED INSULAR GbaOMEGAbbPEN EbaREVERSED OPE
N EuONuUATRILLObc WITH COMMAtD WITH CARONbbEDILLAbbIRCUMFLEX BELOWbbURLbaDOT ABOVEbeBELOWbaHOOKb
e AND TAILbaLINE BELOWbaMIDDLE TILDEbaPALATAL HOOKbaSHORT STROKE OVERLAYbbTROKEbaTAILbbOPBARuB DI
GRAPHuELTAvZH DIGRAPHbf WITH PALATAL HOOKblRETROFLEX HOOKuOTLESS IbbJbc WITH STROKEbo AND HOOKvUB
LE Rbb WITH CROSSED-TAILbaTHORNbaWYNNuUMuZv DIGRAPHbd WITH CURLbjRETROFLEX HOOKwWITH CARONtE WIT
H BREVEbaCARONbbEDILLAbh AND BREVEbbIRCUMFLEX AND ACUTEbpDOT BELOWbpGRAVEbpHOOK ABOVEbpTILDEblBEL
OWbaDOT ABOVEbeBELOWbcUBLE GRAVEbaFLOURISHbaHOOK ABOVEbaINVERTED BREVEbaMACRONbg AND ACUTEblGRAVE
baNOTCHbaOGONEKbaRETROFLEX HOOKbaSTROKEbaTILDEbf BELOWuGYPTOLOGICAL AINbiLEFuNGw WITH CROSSED-TAI
LbcPALATAL HOOKuSHw WITH CURLbcDOUBLE BARbm AND CURLbcPALATAL HOOKbcRETROFLEX HOOKuTuZHw REVERSED
xWITH CARONbdURLbcPALATAL HOOKbcRETROFLEX HOOKbcTAILtF WITH DOT ABOVEbaHOOKbaMIDDLE TILDEbaPALATA
L HOOKbaSTROKEuENG DIGRAPHbf WITH TRILLtG WITH ACUTEbaBREVEbaCARONbbEDILLAbbIRCUMFLEXbaDOT ABOVEb
aHOOKbaMACRONbaOBLIQUE STROKEbaPALATAL HOOKbaSTROKEuAMMAuHAuLOTTAL AbbIbbSTOPbbUtH WITH BREVE BEL
OWbaCARONbbEDILLAbbIRCUMFLEXbaDESCENDERbbIAERESISbbOT ABOVEbeBELOWbaHOOKbaLINE BELOWbaPALATAL HOO
KbaSTROKEuALF HuENGx WITH HOOKuVtI WITH BREVEbaCARONbaDIAERESIS AND ACUTEbbOT BELOWbcUBLE GRAVEba
HOOK ABOVEbaINVERTED BREVEbaMACRONbaOGONEKbaRETROFLEX HOOKbaSTROKEbg AND RETROFLEX HOOKbaTILDEb
f BELOWuNSULAR DbbFbbGbbRbbSbbTvVERTED ALPHAbcOEuOTAx WITH STROKEwIFIED EuStJ WITH CARONbbIRCUMFL
EXbbROSSED-TAILbaSTROKEtK WITH ACUTEbaCARONbbEDILLAbaDESCENDERbbIAGONAL STROKEbbOT BELOWbaHOOKbaL
INE BELOWbaOBLIQUE STROKEbaPALATAL HOOKbaSTROKEbg AND DIAGONAL STROKEuRAtL WITH ACUTEbaBARbbELTb
e AND PALATAL HOOKbaCARONbbEDILLAbbIRCUMFLEX BELOWbbURLbaDOT BELOWbj AND MACRONbcUBLE BARbhMIDDL
E TILDEbaFISHHOOKbaHIGH STROKEbaINVERTED LAZY SbaLINE BELOWbaMIDDLE DOTbhRINGbhTILDEbaPALATAL HOO
KbaRETROFLEX HOOKbo AND BELTbaSTROKEuAMBDA WITH STROKEuENIS FvZHx WITH RETROFLEX HOOKuJuONG Sz WI
TH DIAGONAL STROKEbgOT ABOVEbfHIGH STROKEuS DIGRAPHuUMuZ DIGRAPHtM WITH ACUTEbaCROSSED-TAILbaDO
T ABOVEbeBELOWbaHOOKbaMIDDLE TILDEbaPALATAL HOOKuIDDLE SCOTS Sz-WELSH LLbgVuUMtN PRECEDED BY APOS
TROPHEvWITH ACUTEbaCARONbbEDILLAbbIRCUMFLEX BELOWbbROSSED-TAILbbURLbaDESCENDERbbOT ABOVEbeBELOWba
GRAVEbaLEFT HOOKbbINE BELOWbbONG RIGHT LEGbaMIDDLE TILDEbaOBLIQUE STROKEbaPALATAL HOOKbaRETROFLE
X HOOKuJuUMtO WITH BREVEbaCARONbbIRCUMFLEX AND ACUTEbpDOT BELOWbpGRAVEbpHOOK ABOVEbpTILDEbaDIAERE
SIS AND MACRONbbOT ABOVEbj AND MACRONbeBELOWbcUBLE ACUTEbhGRAVEbaHOOK ABOVEbcRNbe AND ACUTEbjDO
T BELOWbjGRAVEbjHOOK ABOVEbjTILDEbaINVERTED BREVEbaLONG STROKE OVERLAYbcOPbcW RING INSIDEbaMACRON
bg AND ACUTEblGRAVEbaOGONEKbg AND MACRONbaRETROFLEX HOOKbaSTROKE AND ACUTEbaTILDE AND ACUTEbkDIAE
RESISbkMACRONuIuLD POLISH OuMEGAuOuPEN Ez WITH RETROFLEX HOOKyOz WITH RETROFLEX HOOKbfSTROKEzEuUt
P WITH ACUTEbaDOT ABOVEbaFLOURISHbaHOOKbaMIDDLE TILDEbaPALATAL HOOKbaSQUIRREL TAILbbTROKEbg THROU
GH DESCENDERuHItQ WITH DIAGONAL STROKEbaHOOKbe TAILbaSTROKE THROUGH DESCENDERuP DIGRAPHtR ROTUNDA
vWITH ACUTEbaCARONbbEDILLAbbROSSED-TAILbaDOT ABOVEbeBELOWbj AND MACRONbcUBLE GRAVEbaFISHHOOKbi AN
D MIDDLE TILDEbnPALATAL HOOKbaINVERTED BREVEbaLINE BELOWbbONG LEGbaMIDDLE TILDEbaOBLIQUE STROKEba
PALATAL HOOKbaSTROKEbaTAILzOUT HANDLEuAMS HORNuEVERSED Cbd WITH DOTbcEbdNGbcHALF HbcKbcOPEN Ebi W
ITH HOOKboRETROFLEX HOOKbcR WITH FISHHOOKbcSCRIPT GuUMw ROTUNDAtS WITH ACUTEbf AND DOT ABOVEbaCAR
ONbf AND DOT ABOVEbbEDILLAbbIRCUMFLEXbbOMMA BELOWbbURLbaDOT ABOVEbeBELOWbj AND DOT ABOVEbaHOOKbaM
IDDLE TILDEbaOBLIQUE STROKEbaPALATAL HOOKbaSHORT STROKE OVERLAYbbWASH TAILuAKHA YATvLTILLOuCHWA
y WITH HOOKbeRETROFLEX HOOKvRIPT Gbb WITH CROSSED-TAILbaRbb WITH RINGuIDEWAYS DIAERESIZED UbcOb
d WITH STROKEbdPEN ObcTURNED MbcUvGMOID SuQUAT REVERSED ESHuTIRRUP RtT WITH CARONbbEDILLAbbIRCUMF
LEX BELOWbbOMMA BELOWbbURLbaDIAERESISbdGONAL STROKEbbOT ABOVEbeBELOWbaHOOKbe AND RETROFLEX HOOKba
LINE BELOWbaMIDDLE TILDEbaPALATAL HOOKbaRETROFLEX HOOKbaSTROKEuAILLESS PHIuC DIGRAPH WITH CURLuES
H DIGRAPHbf WITH PALATAL HOOKblRETROFLEX HOOKuH WITH STRIKETHROUGHvORN WITH STROKEbk THROUGH DESC
ENDERuONE FIVEySIXyTWOvP HALF OuRESILLOuS DIGRAPHbd WITH RETROFLEX HOOKuUMvRNED AbbEbbLPHAbaDELTA
baEbaGbaHbb WITH FISHHOOKbp AND TAILbaIbbNSULAR GbaKbaLbaMbb WITH LONG LEGbaO OPEN-Obi WITH STROK
EbbEbc WITH HORIZONTAL STROKEbiSTROKEbbPEN EbaRbb WITH HOOKbhLONG LEGbp AND RETROFLEX HOOKbhMIDDL
E TILDEbhPALATAL HOOKbhTAILbaTbb WITH CURLbaUIbaVbaWbaYbb WITH BELTuZtU BARy WITH SHORT RIGHT LEG
vWITH BREVEbaCARONbbIRCUMFLEX BELOWbaDIAERESIS AND ACUTEboCARONboGRAVEboMACRONbkBELOWbbOT BELOWbc
UBLE ACUTEbhGRAVEbaHOOK ABOVEbcRNbe AND ACUTEbjDOT BELOWbjGRAVEbjHOOK ABOVEbjTILDEbaINVERTED BREV
EbaLEFT HOOKbaMACRONbg AND DIAERESISbaOGONEKbaRETROFLEX HOOKbbING ABOVEbaSHORT RIGHT LEGbbTROKEba
TILDEbf AND ACUTEbgBELOWuEuIuMuOuPSILONba WITH STROKEtV WITH CURLbaDIAGONAL STROKEbbOT BELOWbaHOO
KbaPALATAL HOOKbaRIGHT HOOKbaTILDEuENDuISIGOTHIC ZuOLAPUK AEbbOEbbUEuYtW WITH ACUTEbaCIRCUMFLEXba
DIAERESISbbOT ABOVEbeBELOWbaGRAVEbaHOOKbaRING ABOVEtX WITH DIAERESISbbOT ABOVEbaLONG LEFT LEGbn A
ND LOW RIGHT RINGboWITH SERIFbcW RIGHT RINGbaPALATAL HOOKtY WITH CIRCUMFLEXbaDOT ABOVEbeBELOWbaGR
AVEbaHOOKbe ABOVEbaLOOPbaMACRONbaRING ABOVEbaSHORT RIGHT LEGbbTROKEbaTILDEuOGHtZ WITH ACUTEbaCARO
NbbIRCUMFLEXbbURLbaDESCENDERbbOT ABOVEbeBELOWbaHOOKbaLINE BELOWbaMIDDLE TILDEbaPALATAL HOOKbaRETR
OFLEX HOOKbaSTROKEbbWASH TAILnIGATURE FFxIxLwIwLvIJvLONG S TvOEvSThUBSCRIPT SMALL LETTER AbdEbdHb
dIbdJbdKbdLbdMbdNbdObdPbdRbdSbeCHWAbdTbdUbdVbdXbEAF FLUTTERING IN WINDeY GREENcDGERcFT AND LOWE
R AND RIGHT TRIANGULAR THREE QUARTERS BLOCKpONE EIGHTH BLOCKjRIGHT DOUBLE TURNSTILEpTACKqRIANGULA
R HALF BLOCKjUPPER AND RIGHT TRIANGULAR THREE QUARTERS BLOCKpONE EIGHTH BLOCKhGER BUBBLEiLE BRACK
ETs WITH DOTgRC LESS-THAN BRACKEThROW WITH CIRCLED PLUSqSMALL CIRCLEfBARB DOWN RIGHT BARB DOWN HA
RPOONbaUP HARPOONkUP RIGHT BARB DOWN HARPOONyUP HARPOONgLACK LENTICULAR BRACKETlTORTOISE SHELL BR
ACKETfCEILINGgLOSED ENTRYgORNER BRACKETgURLY BRACKET LOWER HOOKtMIDDLE PIECEtUPPER HOOKfDOTTED SU
BSTITUTION BRACKEThUBLE ANGLE BRACKETmPARENTHESISmQUOTATION MARKmWIGGLY FENCEfFISH TAILhVE EIGHTH
S BLOCKgLOORfHALF BLACK CIRCLEqSTARmOCKkCIRCLEq WITH DOTwFOUR DOTSwTHREE DOTSxWO DOTSkFOLDERkINVE
RSE MEDIUM SHADE AND RIGHT HALF BLOCKkMEDIUM SHADEkRUNNING MANhND TELEPHONE RECEIVERfLOW PARAPHRA
SE BRACKETgUGGAGEfMULTIMAPfNORMAL FACTOR SEMIDIRECT PRODUCTfONE EIGHTH BLOCKjQUARTER BLOCKgUTER J
OINfPARENTHESIS EXTENSIONrLOWER HOOKrUPPER HOOKfRAISED OMISSION BRACKETgIGHT ARROWq THROUGH SMAL
L CIRCLErWITH DOUBLE VERTICAL STROKEwSTROKEwVERTICAL STROKElBLACK ARROWlDOUBLE ARROWx WITH STROKE
bdVERTICAL STROKElOPEN-HEADED ARROWlSANS-SERIF ARROWlTRIANGLE-HEADED ARROWlWAVE ARROWmHITE ARROWf
S-SHAPED BAG DELIMITERgEMIDIRECT PRODUCThVEN EIGHTHS BLOCKgIDEWAYS U BRACKEThNGLE QUOTATION MARKg
PEECH BUBBLEgQUARE BRACKET EXTENSIONuLOWER CORNERuUPPER CORNERuWITH DOUBLE STROKEzQUILLzSTROKEzTI
CK IN BOTTOM CORNERbhTOP CORNERzUNDERBARgUBSTITUTION BRACKETfTACKgHIRD WHITE RIGHT POINTING INDEX
hOUGHT BUBBLEhREE EIGHTHS BLOCKlQUARTERS BLOCKgORTOISE SHELL BRACKETgRANSPOSITION BRACKEThIANGL
E BESIDE VERTICAL BARlULAR ONE QUARTER BLOCKfVERTICAL BAR WITH QUILLpOX LINEfWHITE CORNER BRACKET
mURLY BRACKETlLENTICULAR BRACKETlPARENTHESISlSQUARE BRACKETlTORTOISE SHELL BRACKETgIGGLY FENCEgRI
TING HANDe-FACING ARMENIAN ETERNITY SIGNmFISTmSVASTI SIGNx WITH DOTSfHANDED INTERLACED PENTAGRAMf
POINTING ANGLE BRACKEToCURVED ANGLE BRACKEToMAGNIFYING GLASSfSHADED WHITE RIGHTWARDS ARROWgIDE AR
C ANTICLOCKWISE ARROWfTO-RIGHT EMBEDDINGoISOLATEoMARKoOVERRIDEeWARDS ARROWp ABOVE ALMOST EQUAL TO
wREVERSE ALMOST EQUAL TObeTILDE OPERATORwSHORT RIGHTWARDS ARROWwTILDE OPERATORrND UPPER AND LOWE
R ONE EIGHTH BLOCKqFROM BARy TO BLACK DIAMONDqOVER RIGHTWARDS ARROWqTHROUGH LESS-THANySUBSETyXr
O BARw OVER RIGHTWARDS ARROW TO BARuLACK DIAMONDqWITH DOTTED STEMxUBLE VERTICAL STROKEvEQUILATERA
L ARROWHEADvHOOKvLARGE TRIANGLE ARROWHEADwOOPvMEDIUM TRIANGLE ARROWHEADvNOTCHED TAILvPLUS BELOWvS
MALL EQUILATERAL ARROWHEADbbTRIANGLE ARROWHEADwTROKEvTAILz WITH DOUBLE VERTICAL STROKEbfVERTICA
L STROKEwIP DOWNWARDSzUPWARDSvVERTICAL STROKEp-TAILkBACK-TILTED SHADOWED WHITE ARROWlLACK ARROWqC
IRCLED WHITE ARROWlOTTOM-SHADED WHITE ARROWkCOMPRESSED ARROWkDASHED ARROWlOUBLE ARROWw FROM BARxW
ITH STROKEbcVERTICAL STROKEw-TAILrDASH ARROWkFINGER-POST ARROWlRONT-TILTED SHADOWED WHITE ARROWkH
ANDmRPOON OVER RIGHTWARDS HARPOONsWITH BARB DOWN ABOVE RIGHTWARDS HARPOON WITH BARB DOWNbhBELOW L
ONG DASHbhFROM BARbhTO BARbgWARDSbcUP ABOVE LEFTWARDS HARPOON WITH BARB DOWNbmONG DASHblRIGHTWARD
S HARPOON WITH BARB UPbfFROM BARbfTO BARbeWARDSlEAVY ARROWqCOMPRESSED ARROWkLEFT-SHADED WHITE ARR
OWkOPEN-HEADED ARROWkPAIRED ARROWSkQUADRUPLE ARROWkRIGHT-SHADED WHITE ARROWlOCKETkSANS-SERIF ARRO
WlQUARED ARROWnIGGLE ARROWkTOP SHADED WHITE ARROWlRIANGLE ARROWHEADs-HEADED ARROWbf OVER RIGHTWAR
DS TRIANGLE-HEADED ARROWbgTO BARbgWITH BOLD SHAFTblDOUBLE HORIZONTAL STROKEbsVERTICAL STROKEblHEA
VY SHAFTblLONG TIP DOWNWARDSbuUPWARDSblMEDIUM SHAFTblNARROW SHAFTblVERY HEAVY SHAFTbaDASHED ARROW
baPAIRED ARROWSnPLE ARROWrDASH ARROWlWO HEADED ARROWn-HEADED ARROW FROM BARbbWITH DOUBLE VERTICA
L STROKEbgTAILbk WITH DOUBLE VERTICAL STROKEbqVERTICAL STROKEbhRIANGLE ARROWHEADSbgVERTICAL STROK
EvTRIPLE DASH ARROWkWAVE ARROWlHITE ARROWv WITHIN TRIANGLE ARROWHEADcGcMONcOdPARDcPCHA CONSONAN
T SIGN KxANGwLwMwNxYIN-DOwPwRwThDIGIT EIGHTnFIVEoOURnNINEnONEnSEVENoIXnTHREEoWOnZEROhLETTER AoBAp
LAoCApHAoDApDApZAoFApLAoGApLAoHApLAoJAoKApHApLAoLAoMApLAoNApGApYAoPApHApLAoRAoSApHAoTApHApSAqHApT
AqHAoVAoWAoYAhPUNCTUATION CER-WAtNYET THYOOM TA-ROLtTA-ROLuSHOOKz CER-WAhSIGN NUKTAmRANiUBJOINE
D LETTER RAyYAhVOWEL SIGN AAsEsIsOtOsUtUcSS-THAN ABOVE DOUBLE-LINE EQUAL ABOVE GREATER-THANqGREAT
ER-THAN ABOVE DOUBLE-LINE EQUALqLEFTWARDS ARROWqSIMILAR ABOVE GREATER-THANyOR EQUALrLANTED EQUA
L ABOVE GREATER-THAN ABOVE SLANTED EQUALlND NOT APPROXIMATEoSINGLE-LINE NOT EQUAL TOkBUT NOT EQUA
L TOvIVALENT TOkCLOSED BY CURVEz ABOVE SLANTED EQUALkEQUAL TO OR GREATER-THANkOR APPROXIMATEnEQUA
L TOqIVALENT TOnGREATER-THANnSLANTED EQUAL TObd WITH DOT ABOVEbs RIGHTbnINSIDElVER EQUAL TOkWIT
H CIRCLE INSIDEpDOTpQUESTION MARK ABOVEcVEL SLIDERbIBRAcGATURE OPEN ET ORNAMENTdHT CHECK MARKgEIG
HT SPOKED ASTERISKgFIVE POINTED BLACK STARlSPOKED ASTERISKhOUR POINTED BLACK CUSPzSTARgGREEK CROS
SgLEFT TORTOISE SHELL BRACKET ORNAMENTgRAILhIGHT TORTOISE SHELL BRACKET ORNAMENTgSALTIREhHADEhI
X SPOKED ASTERISKgTHREE POINTED BLACK STARhWELVE POINTED BLACK STARgVERTICAL BARgWHITE SQUAREfNIN
Gj MOODo BUBBLEcMBU DIGIT EIGHTmFIVEnOURmNINEmONEmSEVENnIXmTHREEnWOmZEROgEXCLAMATION MARKgLETTE
R BAoHAnCAoHAnDAoHAnGAoHAoYANnHAnJAoHAnKAoHAnLAnMAnNAoGAnPAoHAnRAnSAoHAoSAnTAoHAoRAnWAnYApNgQUEST
ION MARKgSIGN KEMPHRENGlLOOlMUKPHRENGlSA-IhMALL LETTER ANUSVARAtKAtLAtMAtNAuGAtPAtRAtTAhUBJOINE
D LETTER RAxWAxYAgVOWEL SIGN AsIsUrEsErIrOsOrUl-CARRIER LETTERdITED LIABILITY SIGNcNE INTEGRATIO
N NOT INCLUDING THE POLErWITH RECTANGULAR PATH AROUND POLEwSEMICIRCULAR PATH AROUND POLEfSEPARATO
ReAR A SIGN A028Bp100-102q20Bq31Cp301r2r3r4r5r6r7r8r9AsBsCq10r1r2r3AsBsCr4r5r6r7r8r9q20r1r2r3r4r5
r6r7r8r9q30r1r2r3r4r5r6r7r8r9q40r1r2r3r4r5r6r7r8r9q50r1r2r3r4r5r6r7r8r9q60r1r2r3r4r5r6r7r8r9q70r1
p400-VASr1-VASr2-VASr3-VASr4-VASr5-VASr6-VASr7-VASr8-VASr9-VASq10-VASr1-VASr2-VASr3-VASr4-VASr5-V
ASr6-VASr7-VASr8-VASp501r2r3r4r5r6r8r9q10r1r2r3r5r6q20r1r3r4r5r6r7r8r9q30r1r2r4r5r6r7r8r9q40r1r2r
5r7r8r9q50r1r2r3r4r5r6r7r9q63r4r5r6r8r9q70r1r2r3r4r5r6r7r8r9q80r1r2r3r4r5r6r7r8r9q91r2r4r5r6r8p60
0r1r2r3r4r6r8r9q10r1r2r3r4r5r6r7r8r9q20r1r2r3r4r6r7r8r9q34r7r8q40r2r3r4r5r6r8r9q51r2r3r4r5r6r7r8r
9q60r1r2r3r4p701 Ar2 Br3 Dr4 Er5 Fr6 Hr7 Jr8 Kr9 Ls-2 L2t3 L3t4 L4t6 L6q10 Wr1 Xr2 Yr3 OMEGAr4 AB
Br5 BBr7 DDq26 EYYYq32 JEp800r1r2r3r4r5r6r7pB001s2s3s4s5s6s7s8s9r10s1s3s6s7r20s1tFtMs2tFtMs3tMs4s
6s7s8s9r30s1s4s7s8s9r40s1s4s5s6s7s8s9r50s1s3s4s5s6s7s8s9r60s1s5s6s7s9r70s3s4s6s7s8s9r80s1s2s5s6s7
q118r20s2s3r31AtBr64r71r80s8r91hB IDEOGRAM B100 MANv2 WOMANv4 DEERv5 EQUIDwF MAREwM STALLIONv6F E
WEwM RAMv7F SHE-GOATwM HE-GOATv8F SOWwM BOARv9F COWwM BULLu20 WHEATv1 BARLEYv2 OLIVEv3 SPICEv5 CY
PERUSu30 OILv1 WINEv2u40 BRONZEv1 GOLDv2v5 WOOLv6u50v1 HORNv2v3v4v7v8v9 CLOTHu60v1v2 GARMENTv3 AR
MOURv4v5v6v7v8v9u70v1v2v3 MONTHv4v6 TREEv7v8v9u80v1v2v3v4v5v9u90v1 HELMETt220 FOOTSTOOLv5 BATHTUB
u30 SPEARv1 ARROWv2v3 SWORDv4v6u40 WHEELED CHARIOTv1 CHARIOTv2 CHARIOT FRAMEv3 WHEELv5v6v8v9u51v2
v3v4 DARTv5v6v7v8v9sVESSEL B155ba200bc1bc2bc3bc4bc5bc6bc7bc8bc9bb10bc1bc2bc3bc4bc5bc6bc7bc8bc9bb2
1bc2bc6bc7bc8bc9bb50ba305jMONOGRAM B127 KAPOv8 KANAKOu33 AREPAv5 MERIu56 TURO2t247 DIPTEjSYLLABL
E B001 DAv2 ROv3 PAv4 TEv5 TOv6 NAv7 DIv8 Av9 SEu10 Uv1 POv2 SOv3 MEv4 DOv5 MOv6 QAv7 ZAu20 ZOv
1 QIv3 MUv4 NEv5 A2v6 RUv7 REv8 Iv9 PU2u30 NIv1 SAv2 QOv3 RA3v6 JOv7 TIv8 Ev9 PIu40 WIv1 SIv2 WOv
3 A3v4 KEv5 DEv6 JEv8 NWAu50 PUv1 DUv2 NOv3 RIv4 WAv5 NUv7 JAv8 SUv9 TAu60 RAv1 Ov2 PTEv5 JUv6 TA
2v7 KIv8 RO2v9 TUu70 KOv1 DWEv2 PEv3 MIv4 ZEv5 WEv6 RA2v7 KAv8 QEu80 MAv1 KUv5 AUv7 TWEu90 DWOv
1 TWOlMBOL B018t9s22s34s47t9s56s63t4s79s82t3t6t9dK SYMBOLeED PAPERCLIPScON FACEcPSeTICKcRA SIGNcS
U LETTER AnEmBAmCAnHAmDAnZAmEnUmFAmGAnHAmHAnHAmImJAmKAnHAmLAmMAmNAnGAmOnEmPAnHAmSAnHAmTAnHAnONE M
YA BOvCYAvJEUvNAvTIrNA POnSAoHAmUnEnHmWAmXAmYAnHAmZAnHAfPUNCTUATION COMMArFULL STOPcVRE TOURNOI
S SIGNcZARDbLAMAbOBSTERcCKe WITH INK PENcGICAL ANDl WITH DOT ABOVEtUBLE OVERBARyUNDERBARrHORIZONT
AL DASHrMIDDLE STEMrUNDERBARiORk OVERLAPPING LOGICAL ANDlWITH DOT ABOVEsUBLE OVERBARxUNDERBARqHOR
IZONTAL DASHqMIDDLE STEMcLLIPOPcNG DASH FROM LEFT MEMBER OF DOUBLE VERTICALgIVISIONgRUMfLEFT RIGH
T ARROWqDOUBLE ARROWkTACKjWARDS ARROWu FROM BARpDOUBLE ARROWbb FROM BARpSQUIGGLE ARROWfRIGHT TACK
kWARDS ARROWv FROM BARqDOUBLE ARROWbc FROM BARqSQUIGGLE ARROWcTION BOTTLEdUScUDLY CRYING FACEcV
E HOTELfLETTERcW ASTERISKeBATTERYfRIGHTNESS SYMBOLeDOUBLE PRIME QUOTATION MARKeKAVYKAk WITH DOTdE
R BLADE SCISSORSgFIVE EIGHTHS BLOCKgHALF BLOCKlCIRCLElINVERSE WHITE CIRCLElMEDIUM SHADEgLEFT BALL
POINT PENmLOCK DIAGONAL LOWER MIDDLE LEFT TO LOWER CENTREcbRIGHTbaUPPER CENTRE TO LOWER MIDDLE RI
GHTbwRIGHTbqUPPER MIDDLE RIGHTbgLEFT TO LOWER CENTREbuMIDDLE RIGHTboUPPER MIDDLE RIGHTbgMIDDLE LE
FT TO LOWER CENTREcbMIDDLE RIGHTcbRIGHTlCRAYONlFOUNTAIN PENlPAINTBRUSHmENCILlQUADRANT CIRCULAR AR
ClSEMICIRCULAR ANTICLOCKWISE ARROWlTRIANGLErULAR MEDIUM SHADEgONE EIGHTH BLOCKkQUARTER BLOCKgRIGH
T BLOCK DIAGONAL LOWER CENTRE TO LOWER MIDDLE RIGHTbrUPPER MIDDLE RIGHTbxRIGHTbhLEFT TO LOWER MID
DLE RIGHTbpUPPER CENTREbvMIDDLE RIGHTbhMIDDLE LEFT TO UPPER CENTREccMIDDLE RIGHTccRIGHTbbUPPER MI
DDLE LEFT TO UPPER CENTREccRIGHTmCORNER WITH DOTmDROP-SHADOWED WHITE SQUAREmPENCILmQUADRANT CIRCU
LAR ARCmSEMICIRCULAR CLOCKWISE ARROWnHADOWED WHITE CIRCLEbbSQUAREmTRIANGLEsULAR MEDIUM SHADEgSEVE
N EIGHTHS BLOCKgTHREE EIGHTHS BLOCKmQUARTERS BLOCKhRIANGULAR ONE QUARTER BLOCKcZENGEh DIVIDED B
Y HORIZONTAL RULEbREcIcMcObUGGAGEcNGSbYCIAN LETTER ApNoBpHoDoEpNoGoHoIoJoKpKoLoMpMoNpNoPoQoRoSoTp
HpToUoWoXoZcDIAN LETTER ApNoBoCoDoEpNoFoGoIoKoLpYoMoNpNoOoQoRoSpSoTpToUoVoYhTRIANGULAR MARKcING F
ACE"),
  ('M', "
aMAGEdIC WANDdNETcHAJANI ABBREVIATION SIGNjLETTER AqBArHAqCArHAqDArDAsHArHAqEqGArHAqHAqIqJArHAqKA
rHAqLAqMAqNArNArYAqOqPArHAqRArRAqSAqTArHArTAsHAqUqVAkIGATURE SHRIjSECTION MARKkIGN NUKTAdJONG TIL
E AUTUMNnBACKpMBOOnCHRYSANTHEMUMnEAST WINDoIGHT OF BAMBOOSwCHARACTERSxIRCLESnFIVE OF BAMBOOSvCHAR
ACTERSwIRCLESoOUR OF BAMBOOSvCHARACTERSwIRCLESnGREEN DRAGONnJOKERnNINE OF BAMBOOSvCHARACTERSwIRCL
ESoORTH WINDnONE OF BAMBOOSuCHARACTERSvIRCLESoRCHIDnPLUMnRED DRAGONnSEVEN OF BAMBOOSwCHARACTERSxI
RCLESoIX OF BAMBOOSuCHARACTERSvIRCLESoOUTH WINDoPRINGoUMMERnTHREE OF BAMBOOSwCHARACTERSxIRCLESoW
O OF BAMBOOSuCHARACTERSvIRCLESnWEST WINDoHITE DRAGONoINTERcKASAR ANGKAiEND OF SECTIONiLETTER ApBA
pCApDApGApJApKApLApMApNAqGAqYApPApRApSApTApVApYAiPASSIMBANGiVOWEL SIGN EtItOtUcLAYALAM AU LENGT
H MARKkDATE MARKlIGIT EIGHTqFIVErOURqNINEqONEqSEVENrIXqTHREErWOqZEROkFRACTION ONE EIGHTHxFIFTHyOR
TIETHxHALFxONE-HUNDRED-AND-SIXTIETHxQUARTERxSIXTEENTHxTENTHyWENTIETHtTHREE EIGHTIETHSzQUARTERSzSI
XTEENTHSzTWENTIETHSkLETTER AsAsIsRCHAIC IIsUrBAsHArCAsHAtILLU KyLzLbaLyMyNzNyRRyYrDAsDAtHAsHAsO
T REPHrEsErGAsHArHArIsIrJAsHArKAsHArLAsLAtLArMArNAsGAsNAtNAsYArOsOrPAsHArRAsRArSAsHAsSArTAsHAsTAt
HAtTArUsUrVAsEDIC ANUSVARAsOCALIC LbaLzRbaRrYAkNUMBER ONE HUNDREDvTHOUSANDrTENkSIGN ANUSVARAqVAGR
AHApCANDRABINDUqIRCULAR VIRAMAqOMBINING ANUSVARA ABOVEpPARApVERTICAL BAR VIRAMAqIRAMArSARGAkVOWE
L SIGN AAwIwUvEwEvIwIvOwOvUwUvVOCALIC LbeLbdRbeRdE AND FEMALE SIGNfSIGNfWITH STROKE AND MALE AN
D FEMALE SIGNrSIGNdTESE CROSScMMOTHcNd AND WOMAN HOLDING HANDSeDANCINGeIN BUSINESS SUIT LEVITATIN
GhTUXEDOeWITH GUA PI MAOjTURBANdAT SIGNdDAIC AFFRICATION MARKiGEMINATION MARKiLETTER ABqDqGqHqINq
KrSAqLqMqNqPqQqRqSrHrZqTrTqZpDUSHENNApHALQApINqTpKADpUSHENNAiPUNCTUATIONiVOCALIZATION MARKdGOdICH
AEAN ABBREVIATION MARK ABOVEbdBELOWlLETTER AAYINtLEPHtYINsBETHtHETHsDALETHtHAMEDHsFEsGHIMELtIMELs
HEuTHsJAYINtHAYINsKAPHtHAPHsLAMEDHsMEMsNUNsPEsQHOPHtOPHsRESHsSADHEuMEKHtHINtSHINsTAWtETHtHAMEDHsW
AWsXAPHtOPHsYODHsZAYINtHAYINlNUMBER FIVEsONEv HUNDREDsTENtWENTYlPUNCTUATION DOTba WITHIN DOTzUBL
E DOT WITHIN DOTxFLEURONxLINE FILLERxSTARxTWO DOTSlSIGN UDdS SHOEdTELPIECE CLOCKdUAL WHEELCHAIRc
P SYMBOL FOR LIGHTHOUSEdLE LEAFcRCHEN HEAD MARKiLETTER -ApApBApCAqHApDAqZApGApHApJApKAqHApLApMApN
AqGAqYApPAqHApRApSAqHApTAqHAqSArHApWApYApZAqHAiMARK SHADiSIGN ANUSVARAnCANDRABINDUjUBJOINED LETTE
R AzBAzCAbaHAzDAbaZAzGAzHAzJAzKAbaHAzLAzMAzNAbaGAbaYAzPAbaHAzRAzSAbaHAzTAbaHAbaSAbbHAzWAzYAzZAbaH
AiVOWEL SIGN AAtEtItOtUdRIAGE SYMBOLdTIAL ARTS UNIFORMcSARAM GONDI DIGIT EIGHTuFIVEvOURuNINEuONEu
SEVENvIXuTHREEvWOuZEROoLETTER AwAwIwUvBAwHAvCAwHAvDAwDAxHAwHAvEvGAwHAvHAvIwIvJAwHAwNYAvKAwHAwSSAv
LAwLAvMAvNAwGAwNAwYAvOvPAwHAvRAvSAwHAwSAvTAwHAwRAwTAxHAvUwUvVAvYAoRA-KARApEPHAoSIGN ANUSVARAtCAND
RAtHALANTAtNUKTAtVISARGAoVIRAMApOWEL SIGN AAbaIbaUzEzIbaIzOzUbaUzVOCALIC RdK WORK SYMBOLdU MARKcT
E DRINKdHEMATICAL BOLD CAPITAL AbbLPHAbaBbbETAbaCbbHIbaDbbELTAbbIGAMMAbaEbbPSILONbbTAbaFbaGbbAMMA
baHbaIbbOTAbaJbaKbbAPPAbaLbbAMDAbaMbbUbaNbbUbaObbMEGAbcICRONbaPbbHIbbIbbSIbaQbaRbbHObaSbbIGMAbaTb
bAUbbHETAbf SYMBOLbaUbbPSILONbaVbaWbaXbbIbaYbaZbbETAsDIGIT EIGHTyFIVEzOURyNINEyONEySEVENzIXyTHREE
zWOyZEROsEPSILON SYMBOLsFRAKTUR CAPITAL AbiBbiCbiDbiEbiFbiGbiHbiIbiJbiKbiLbiMbiNbiObiPbiQbiRbiSbi
TbiUbiVbiWbiXbiYbiZbaSMALL AbgBbgCbgDbgEbgFbgGbgHbgIbgJbgKbgLbgMbgNbgObgPbgQbgRbgSbgTbgUbgVbgWbgX
bgYbgZsITALIC CAPITAL AbiLPHAbhBbiETAbhCbiHIbhDbiELTAbhEbiPSILONbiTAbhFbhGbiAMMAbhHbhIbiOTAbhJbhK
biAPPAbhLbiAMDAbhMbiUbhNbiUbhObiMEGAbjICRONbhPbiHIbiIbiSIbhQbhRbiHObhSbiIGMAbhTbiAUbiHETAbm SYMBO
LbhUbiPSILONbhVbhWbhXbiIbhYbhZbiETAzEPSILON SYMBOLzKAPPA SYMBOLzNABLAzPARTIAL DIFFERENTIALbaHI SY
MBOLbaI SYMBOLzRHO SYMBOLzSMALL AbgLPHAbfBbgETAbfCbgHIbfDbgELTAbfEbgPSILONbgTAbfFbgINAL SIGMAbfGb
gAMMAbfHbfIbgOTAbfJbfKbgAPPAbfLbgAMDAbfMbgUbfNbgUbfObgMEGAbhICRONbfPbgHIbgIbgSIbfQbfRbgHObfSbgIGM
AbfTbgAUbgHETAbfUbgPSILONbfVbfWbfXbgIbfYbfZbgETAzTHETA SYMBOLsKAPPA SYMBOLsNABLAsPARTIAL DIFFEREN
TIALtHI SYMBOLtI SYMBOLsRHO SYMBOLsSCRIPT CAPITAL AbhBbhCbhDbhEbhFbhGbhHbhIbhJbhKbhLbhMbhNbhObhPb
hQbhRbhSbhTbhUbhVbhWbhXbhYbhZzSMALL AbfBbfCbfDbfEbfFbfGbfHbfIbfJbfKbfLbfMbfNbfObfPbfQbfRbfSbfTbfU
bfVbfWbfXbfYbfZtMALL AzLPHAyBzETAyCzHIyDzELTAzIGAMMAyEzPSILONzTAyFzINAL SIGMAyGzAMMAyHyIzOTAyJyKz
APPAyLzAMDAyMzUyNzUyOzMEGAbaICRONyPzHIzIzSIyQyRzHOySzIGMAyTzAUzHETAyUzPSILONyVyWyXzIyYyZzETAsTHET
A SYMBOLnDOUBLE-STRUCK CAPITAL AbjBbjDbjEbjFbjGbjIbjJbjKbjLbjMbjObjSbjTbjUbjVbjWbjXbjYbbDIGIT EIG
HTbhFIVEbiOURbhNINEbhONEbhSEVENbiIXbhTHREEbiWObhZERObbSMALL AbhBbhCbhDbhEbhFbhGbhHbhIbhJbhKbhLbhM
bhNbhObhPbhQbhRbhSbhTbhUbhVbhWbhXbhYbhZnFALLING DIAGONALoRAKTUR CAPITAL AbdBbdDbdEbdFbdGbdJbdKbdL
bdMbdNbdObdPbdQbdSbdTbdUbdVbdWbdXbdYvSMALL AbbBbbCbbDbbEbbFbbGbbHbbIbbJbbKbbLbbMbbNbbObbPbbQbbRbb
SbbTbbUbbVbbWbbXbbYbbZnITALIC CAPITAL AbdLPHAbcBbdETAbcCbdHIbcDbdELTAbcEbdPSILONbdTAbcFbcGbdAMMAb
cHbcIbdOTAbcJbcKbdAPPAbcLbdAMDAbcMbdUbcNbdUbcObdMEGAbeICRONbcPbdHIbdIbdSIbcQbcRbdHObcSbdIGMAbcTbd
AUbdHETAbh SYMBOLbcUbdPSILONbcVbcWbcXbdIbcYbcZbdETAuEPSILON SYMBOLuKAPPA SYMBOLuNABLAuPARTIAL DIF
FERENTIALvHI SYMBOLvI SYMBOLuRHO SYMBOLuSMALL AbbLPHAbaBbbETAbaCbbHIbaDbbELTAbbOTLESS IbiJbaEbbPS
ILONbbTAbaFbbINAL SIGMAbaGbbAMMAbaIbbOTAbaJbaKbbAPPAbaLbbAMDAbaMbbUbaNbbUbaObbMEGAbcICRONbaPbbHIb
bIbbSIbaQbaRbbHObaSbbIGMAbaTbbAUbbHETAbaUbbPSILONbaVbaWbaXbbIbaYbaZbbETAuTHETA SYMBOLnLEFT ANGL
E BRACKETsDOUBLE ANGLE BRACKETsFLATTENED PARENTHESISsWHITE SQUARE BRACKETyTORTOISE SHELL BRACKETn
MONOSPACE CAPITAL AbfBbfCbfDbfEbfFbfGbfHbfIbfJbfKbfLbfMbfNbfObfPbfQbfRbfSbfTbfUbfVbfWbfXbfYbfZxDI
GIT EIGHTbdFIVEbeOURbdNINEbdONEbdSEVENbeIXbdTHREEbeWObdZEROxSMALL AbdBbdCbdDbdEbdFbdGbdHbdIbdJbdK
bdLbdMbdNbdObdPbdQbdRbdSbdTbdUbdVbdWbdXbdYbdZnRIGHT ANGLE BRACKETtDOUBLE ANGLE BRACKETtFLATTENE
D PARENTHESIStWHITE SQUARE BRACKETzTORTOISE SHELL BRACKETpSING DIAGONALnSANS-SERIF BOLD CAPITAL A
bmLPHAblBbmETAblCbmHIblDbmELTAblEbmPSILONbmTAblFblGbmAMMAblHblIbmOTAblJblKbmAPPAblLbmAMDAblMbmUbl
NbmUblObmMEGAbnICRONblPbmHIbmIbmSIblQblRbmHOblSbmIGMAblTbmAUbmHETAbq SYMBOLblUbmPSILONblVblWblXbm
IblYblZbmETAbdDIGIT EIGHTbjFIVEbkOURbjNINEbjONEbjSEVENbkIXbjTHREEbkWObjZERObdEPSILON SYMBOLbdITAL
IC CAPITAL AbtLPHAbsBbtETAbsCbtHIbsDbtELTAbsEbtPSILONbtTAbsFbsGbtAMMAbsHbsIbtOTAbsJbsKbtAPPAbsLbt
AMDAbsMbtUbsNbtUbsObtMEGAbuICRONbsPbtHIbtIbtSIbsQbsRbtHObsSbtIGMAbsTbtAUbtHETAbx SYMBOLbsUbtPSILO
NbsVbsWbsXbtIbsYbsZbtETAbkEPSILON SYMBOLbkKAPPA SYMBOLbkNABLAbkPARTIAL DIFFERENTIALblHI SYMBOLbl
I SYMBOLbkRHO SYMBOLbkSMALL AbrLPHAbqBbrETAbqCbrHIbqDbrELTAbqEbrPSILONbrTAbqFbrINAL SIGMAbqGbrAMM
AbqHbqIbrOTAbqJbqKbrAPPAbqLbrAMDAbqMbrUbqNbrUbqObrMEGAbsICRONbqPbrHIbrIbrSIbqQbqRbrHObqSbrIGMAbqT
brAUbrHETAbqUbrPSILONbqVbqWbqXbrIbqYbqZbrETAbkTHETA SYMBOLbdKAPPA SYMBOLbdNABLAbdPARTIAL DIFFEREN
TIALbeHI SYMBOLbeI SYMBOLbdRHO SYMBOLbdSMALL AbkLPHAbjBbkETAbjCbkHIbjDbkELTAbjEbkPSILONbkTAbjFbkI
NAL SIGMAbjGbkAMMAbjHbjIbkOTAbjJbjKbkAPPAbjLbkAMDAbjMbkUbjNbkUbjObkMEGAblICRONbjPbkHIbkIbkSIbjQbj
RbkHObjSbkIGMAbjTbkAUbkHETAbjUbkPSILONbjVbjWbjXbkIbjYbjZbkETAbdTHETA SYMBOLyCAPITAL AbgBbgCbgDbgE
bgFbgGbgHbgIbgJbgKbgLbgMbgNbgObgPbgQbgRbgSbgTbgUbgVbgWbgXbgYbgZyDIGIT EIGHTbeFIVEbfOURbeNINEbeONE
beSEVENbfIXbeTHREEbfWObeZEROyITALIC CAPITAL AbnBbnCbnDbnEbnFbnGbnHbnIbnJbnKbnLbnMbnNbnObnPbnQbnRb
nSbnTbnUbnVbnWbnXbnYbnZbfSMALL AblBblCblDblEblFblGblHblIblJblKblLblMblNblOblPblQblRblSblTblUblVbl
WblXblYblZySMALL AbeBbeCbeDbeEbeFbeGbeHbeIbeJbeKbeLbeMbeNbeObePbeQbeRbeSbeTbeUbeVbeWbeXbeYbeZoCRI
PT CAPITAL AbcCbcDbcGbcJbcKbcNbcObcPbcQbcSbcTbcUbcVbcWbcXbcYbcZuSMALL AbaBbaCbaDbaFbaHbaIbaJbaKba
LbaMbaNbaPbaQbaRbaSbaTbaUbaVbaWbaXbaYbaZcXIMIZEcYAN NUMERAL EIGHTtEENpLEVENoFIFTEENqVEpOURsTEENoN
INEsTEENoONEoSEVENtTEENpIXrTEENoTENpHIRTEENqREEpWELVEqOoZERObEASURED ANGLEo OPENING LEFTpWITH OPE
N ARM ENDING IN ARROW POINTING DOWN AND LEFTclRIGHTccLEFT AND DOWNclUPccRIGHT AND DOWNcmUPccUP AN
D LEFTcjRIGHTjBYjRIGHT ANGLE WITH DOTdT ON BONEcCHANICAL ARMlLEGcDEFAIDRIN CAPITAL LETTER AbcIbcT
IUbbBbbCbbDbbEbbFbbGbbHbcPbbIbbJbbKbcPbbLbbMbbNbcGbcYbbObcEbbPbbQbbRbbSbbTbbUbbVbbWbbXbbYbcUbbZnO
MMAmDIGIT EIGHTsFIVEtOURsNINEsONEv ALTERNATE FORMsSEVENtIXsTHREEx ALTERNATE FORMtWOv ALTERNATE FO
RMsZEROmEXCLAMATION OHmFULL STOPmNUMBER EIGHTEENuLEVENtFIFTEENuOURTEENtNINETEENtSEVENTEENuIXTEENt
TENuHIRTEENuWELVEmSMALL LETTER AbaIbaTIUzBzCzDzEzFzGzHbaPzIzJzKbaPzLzMzNbaGbaYzObaEzPzQzRzSzTzUzV
zWzXzYbaUzZnYMBOL AIVAdIEVAL COMMAjEXCLAMATION MARKjQUESTION MARKeUM BLACK CIRCLEiOLD WHITE CIRCL
EhEIGHT POINTED BLACK STARnSPOKED ASTERISKhFIVE SPOKED ASTERISKiLATTENED LEFT PARENTHESIS ORNAMEN
TrRIGHT PARENTHESIS ORNAMENTiOUR POINTED BLACK STARuPINWHEEL STARhGREEK CROSShLEFT CURLY BRACKE
T ORNAMENTmPARENTHESIS ORNAMENTl-POINTING ANGLE BRACKET ORNAMENThMATHEMATICAL SPACEhRIGHT CURLY B
RACKET ORNAMENTnPARENTHESIS ORNAMENTm-POINTING ANGLE BRACKET ORNAMENThSALTIREiHADEiIX POINTED BLA
CK STARlSPOKED ASTERISKiMALL WHITE CIRCLEhTHREE POINTED BLACK STARvPINWHEEL STARhVERTICAL BARhWHI
TE CIRCLEnSQUAREcETEI MAYEK AHANG KHUDAMoNJIoPUN IYEKnCHEIKHANtEInDIGIT EIGHTtFIVEuOURtNINEtONEtS
EVENuIXtTHREEuWOtZEROnLETTER ATIYAuBAvHAMuCHAwILuDDAwHAvHOUvILuEuGHOUvOKuHUKuIv LONSUMuJHAMvILuKH
OUvOKx LONSUMuLAIx LONSUMuMITx LONSUMuNAw LONSUMvGOUy LONSUMvNAvYAuOuPAw LONSUMvHAMuRAIuSAMvHAvSA
uTHOUvILx LONSUMvTAwHAuUNuWAIuYANGoUM IYEKnSYLLABLE REPETITION MARKnVIRAMAoOWEL SIGN AAIbaUzNAPzU
yCHEINAPyIIzNAPyNUNGyONAPySOUNAPyUNAPzUyVISARGAyYENAPnWORD REPETITION MARKcLONdTING FACEcMOcNDE K
IKAKUI COMBINING NUMBER HUNDRED THOUSANDSbmSbfMILLIONSbfTEENSbhN THOUSANDSbiSbgHOUSANDSoDIGIT EIG
HTuFIVEvOURuNINEuONEuSEVENvIXuTHREEvWOoSYLLABLE M001 KIba2 KAba3 KUba4 WIba5 WAba6 WUba7 MINba8 M
ANba9 MUNz10 BIba1 BAba2 BUba3 Iba4 Aba5 Uba6 DIba7 DAba8 DUba9 SIz20 SAba1 SUba2 TIba3 TAba4 TUb
a5 LIba6 LAba7 LUba8 JIba9 JAz30 JUba1 YIba2 YAba3 YUba4 FIba5 FAba6 FUba7 NINba8 NANba9 NUNz40 H
EEba1 HAba2 HOOba3 NGGAba4 KPEEba5 WOba6 HUANba7 MBEEba8 KOba9 WVAz50 PUba1 PEba2 HENba3 HINba4 L
OOba5 TEba6 GBAba7 NGONba8 NYANba9 MENz60 NYONba1 WVIba2 MBAba3 JOba4 NDOba5 KEEba6 POba7 NDOOba
8 PIba9 TOz70 GBOba1 GBOOba2 MBEba3 LEba4 KPUba5 FEba6 KOOba7 VOba8 FEEba9 SOz80 YEba1 PEEba2 NGG
Uba3 HEEIba4 LEEba5 VEba6 LONG NGGEba7 HUNba8 FOba9 DEEz90 NGGIba1 TEEba2 KPAba3 GBEEba4 MONba5 K
Eba6 HEba7 BEba8 NYENba9 PAy100 Eba1 FANba2 POOba3 BOOba4 TOOba5 LONG MBOOba6 LONG NGGOOba7 GBEba
8 KPEba9 YEEz10 LONG LEba1 GAba2 KPOOba3 JEba4 WOOba5 NGGEEba6 SEba7 NENba8 WEba9 NDEz20 NGGOba
1 YOba2 MBUba3 NDIba4 GBIba5 NDUba6 WEEba7 NGGUAba8 HOOUba9 NDAz30 HANba1 INba2 KPIba3 FOOba4 NJO
Oba5 INba6 SOOba7 EIba8 BOba9 WVEz40 HOba1 YOOba2 LONG MBOba3 WEIba4 VOOba5 MBIba6 NGGEba7 Oba8 G
BUba9 NJEEz50 BEEba1 VUba2 NJAba3 LOba4 MUANba5 GIba6 NGGOOba7 JEEba8 KPOba9 NGGAAz60 JOOba1 LON
G MBEba2 SEEba3 EEba4 NYINba5 OOba6 GUEIba7 GUANba8 GUba9 NONz70 NYUNba1 RAba2 MBOOba3 VEEba4 MBO
ba5 LONG JOba6 HIba7 NGUANba8 ENba9 KUAz80 DOOba1 DOba2 VIba3 LONG NGGOba4 NGENba5 VAba6 HUba7 MB
UUba8 MBEEba9 MUENz90 GEEba1 NDEEba2 NJUba3 HONba4 WUIba5 ANba6 SIAba7 FUAdORAH WITH NINE BRANCHE
SdS SYMBOLcRCURYdOITIC CURSIVE FRACTION EIGHT TWELFTHSbbLEVEN TWELFTHSbaFIVE TWELFTHSbbOUR TWELFT
HSbaNINE TWELFTHSbaONE HALFbeTWELFTHbaSEVEN TWELFTHSbbIX TWELFTHSbaTEN TWELFTHSbbHREE TWELFTHSbbW
O TWELFTHSrLETTER AzRCHAIC SAyBAyDAyEyHHAyIyKAzHAyLAyMAyNAzEyOyPAyQAyRAySAzEyTAzEzOyWAyYAsOGOGRA
M IMNbaRMTrNUMBER EIGHTbd HUNDREDbl THOUSANDbeTHOUSANDbdY THOUSANDyFIFTYbd THOUSANDbaVEbc HUNDRED
bk THOUSANDbdTHOUSANDzORTYbd THOUSANDbaURbc HUNDREDbk THOUSANDbdTHOUSANDyNINEbc HUNDREDbk THOUSAN
DbdTHOUSANDbcTY THOUSANDyONEbb HUNDREDbj THOUSANDbcTHOUSANDySEVENbd HUNDREDbl THOUSANDbeTHOUSANDb
dTYbf THOUSANDzIXbb HUNDREDbj THOUSANDbcTHOUSANDbbTYbd THOUSANDyTENbb THOUSANDzHIRTYbe THOUSANDba
REEbd HUNDREDbl THOUSANDbeTHOUSANDzWENTYbe THOUSANDbaObb HUNDREDbj THOUSANDbcTHOUSANDjHIEROGLYPHI
C LETTER AbdBAbf-2bdDAbdEbdHHAbdIbdKAbeHAbdLAbdMAbdNAbf-2beEbf-2bdObdPAbdQAbdRAbf-2bdSAbf-2beEbdT
Abf-2beEbf-2beObdWAbdYAwSYMBOL VIDJbh-2dPERSONcTRICAL BREVEjLONG OVER SHORTtTWO SHORTSjPENTASEMEj
SHORT OVER LONGjTETRASEMEkRISEMEkWO SHORTS JOINEDuOVER LONGeObIAO LETTER AHnRCHAIC MAuNAvGAuZZAmB
AnRImDAnDAnLHApYAnZAoHAoYIoZAmFAmGAnHAoHAmHAnHAmKAmLAnHAoYAnYAmMAnHAmNAoSALIZATIONnGAoHAnHAnNAoHA
nYAoHAmPAnLAmQAnGAmREFORMED TONE-1ba2ba4ba5ba6ba8wSHAnTEmSAnHAnSAnYImTAnEnLHApYAnONE-2r3r4r5r6r7r
8nSAoEoHAoSAnTAmVAnFAmWAmXAmYI DZHApKApNNApPApTAqSArHAqTAmZAnHAnSAoHAnZAoSApYAoYAfSIGN ASPIRATION
kCONSONANT MODIFIER BARkREFORMED ASPIRATIONtVOICINGfTONE ABOVEkBELOWkRIGHTkTOP RIGHTfVOWEL SIGN A
rArEsErHHrIrNsGrUqErArIrNsGrRsRqIrAsNtGrErGrIrNGrOsNGrUqNrGqOrERsYrGrOrUqROUNDED ERbaRqUrAsNtGrEI
rIrNGrOGrUqVWqWrOqYrIrUIcCR DASH SYMBOLfON US SYMBOLeOBEfPHONEfSCOPEcDDLE THIRD WHITE RIGHT POINT
ING INDEXdLINE HORIZONTAL ELLIPSIScLITARY HELMETjMEDALdKY WAYdL SIGNcNIBUSeDISCeMIZEdUS SIGNk I
N TRIANGLElWITH COMMA ABOVEqDOT BELOWqFALLING DOTSqRISING DOTSgTILDEf-OR-PLUS SIGNdYcRRORg BALLbM
SPbOBILE PHONEm OFFnWITH RIGHTWARDS ARROW AT LEFTcDELSeRN PENTATHLONdI ABBREVIATION SIGNfDANDAgIG
IT EIGHTlFIVEmOURlNINElONElSEVENmIXlTHREEmWOlZEROgOUBLE DANDAfLETTER AnAnInUmBAnHAmCAnHAmDAnDAoHA
nHAmEmGAnHAmHAmInImJAnHAmKAnHAmLAnLAmMAmNAnGAnNAnYAmOmPAnHAmRAmSAnHAnSAmTAnHAnTAoHAmUnUmVAnOCALI
C LvLuRvRmYAfSIGN ANUSVARAlRDHACANDRAkHUVAkVIRAMAmSARGAfVOWEL SIGN AArIrUqEqIrIqOqUrUqVOCALIC LzL
yRzReFIER BREVE WITH INVERTED BREVEjLETTER ACUTE ACCENTrLVEOLAR CLICKrPOSTROPHEqBEGIN HIGH TONEwL
OW TONErILABIAL CLICKqCAPITAL AzEyBzARRED ByCyDyEyFyGyHz WITH STROKEyIyJyKyLyMyNyOzUyPyQyRzEVERSE
D EbhNyTyUyVyWrENTRED LEFT HALF RINGyRIGHT HALF RINGrHINESE TONE YANG PINGbiQUbiRUbiSHANGbeIN PIN
GbhQUbhRUbhSHANGrIRCUMFLEX ACCENTrOLONrROSS ACCENTrYRILLIC ENzHARD SIGNzSOFT SIGNqDENTAL CLICKrO
T HORIZONTAL BARuSLASHuVERTICAL BARsUBLE APOSTROPHExPRIMEsWN ARROWHEADvTACKqEND HIGH TONEuLOW TON
ErXTRA-HIGH DOTTED LEFT-STEM TONE BARbiTONE BARbbLEFT-STEM TONE BARbbTONE BARwLOW DOTTED LEFT-STE
M TONE BARbhTONE BARbaLEFT-STEM TONE BARbaTONE BARqGEORGIAN NARrLOTTAL STOPbc WITH STROKErRAVE AC
CENTqHALF TRIANGULAR COLONrIGH DOTTED LEFT-STEM TONE BARbcTONE BARvLEFT-STEM TONE BARvTONE BARqLA
TERAL CLICKrEFT ARROWHEADvHALF RINGvTACKrOW ACUTE ACCENTuCIRCUMFLEX ACCENTuDOTTED LEFT-STEM TON
E BARbbTONE BARwWN ARROWHEADuGRAVE ACCENTuINVERTED EXCLAMATION MARKuLEFT ARROWbeHEADy-STEM TONE B
ARuMACRONuRIGHT ARROWHEADwNGuTILDEvONE BARuUP ARROWHEADuVERTICAL LINEtER RIGHT CORNER ANGLEqMACRO
NrID DOTTED LEFT-STEM TONE BARbbTONE BARuLEFT-STEM TONE BARuTONE BARtDLE DOUBLE ACUTE ACCENTbeGRA
VE ACCENTxGRAVE ACCENTsNUS SIGNqOPEN SHELFqPLUS SIGNrRIMEqRAISED COLONxDOWN ARROWxEXCLAMATION MAR
KxINVERTED EXCLAMATION MARKxUP ARROWrETROFLEX CLICK WITH RETROFLEX HOOKsVERSED COMMAzGLOTTAL STOP
bl WITH STROKErHOTIC HOOKrIGHT ARROWHEADwHALF RINGwTACKqSHELFsORT EQUALS SIGNrMALL AxExINxLPHAwB
x WITH HOOKxARRED OxETAxOTTOM HALF OwCx WITH CURLxAPITAL AAbeBbeGbf WITH HOOKbeHbeIbf WITH STROKE
bfNVERTED RbeLbf WITH BELTbeNbeOEbeRbeUbeYxHIxLOSED OMEGAbdREVERSED OPEN EwDx WITH HOOKbh AND TAI
LbdTAILxELTAyZH DIGRAPHxOTLESS J WITH STROKEbr AND HOOKxZ DIGRAPHbg WITH CURLbmRETROFLEX HOOKwExN
GxSHxTHxZHwFxENG DIGRAPHwGx WITH HOOKxAMMAxREEK GAMMAbcPHIwHx WITH HOOKbdSTROKExENGba WITH HOOKw
I WITH STROKExOTAwJx WITH CROSSED-TAILwKwLx WITH BELTbdINVERTED LAZY SbdMIDDLE TILDEbdPALATAL HOO
KbdRETROFLEX HOOKbr AND BELTxEZHba WITH RETROFLEX HOOKxIGATURE OExS DIGRAPHxZ DIGRAPHwMx WITH HOO
KwN WITH LEFT HOOKbdRETROFLEX HOOKwOx WITH STROKExPEN EbbOwPxHIwQwRx WITH FISHHOOKbdTAILxAMS HORN
xEVERSED EbfGLOTTAL STOPbfOPEN EwSx WITH CURLbdHOOKxCHWAyRIPT GxIDEWAYS UwTx WITH PALATAL HOOKbdR
ETROFLEX HOOKxC DIGRAPH WITH CURLxESH DIGRAPHxHETAxOP HALF OxS DIGRAPHbg WITH RETROFLEX HOOKxURNE
D AbeEbeLPHAbdHbdIbdMbe WITH LONG LEGbdOPEN EbdRbe WITH HOOKbkLONG LEGbs AND RETROFLEX HOOKbdVbdW
bdYbe WITH BELTwUx BARyWITH LEFT HOOKxPSILONwVx WITH HOOKbdRIGHT HOOKwWwXwYwZx WITH CURLbdRETROFL
EX HOOKrTRESS AND HIGH TONEbbLOW TONErUPERSCRIPT HALF TRIANGULAR COLONbcTRIANGULAR COLONqTRIANGUL
AR COLONrURNED COMMAqUNASPIRATEDrP ARROWHEADtTACKrSqVERTICAL LINErOICINGqYANG DEPARTING TONE MARK
rIN DEPARTING TONE MARKdULO TWO SUMcNEY BAGgWITH WINGSf-MOUTH FACEdGOLIAN BIRGAp WITH DOUBLE ORNA
MENTvORNAMENTkCOLONmMMAkDIGIT EIGHTqFIVErOURqNINEqONEqSEVENrIXqTHREErWOqZEROlOUBLE BIRGA WITH ORN
AMENTkELLIPSISkFOUR DOTSlREE VARIATION SELECTOR FOURbiONEbiTHREEbjWOlULL STOPkINVERTED BIRGAy WIT
H DOUBLE ORNAMENTkLETTER AsLI GALI AbbHbbNUSVARA ONEbaBALUDAbaCAbaDAbcGALGAbcMARUbbDAbaHALF UbfYA
baIbbNVERTED UBADAMAbaKAbaNGAbbNAbaPAbbHAbaSSAbaTAbbHREE BALUDAbbTAbcHAbaUBADAMAbaVISARGA ONEbaZA
bbHAsNGrBArCHAu WITH TWO DOTStIrDArEsErFArGArHAArIrJArKAsHArLAsHArMAtNCHU ALI GALI BHAbhCAbiYAbhD
DHAbiHAbhGHAbhJHAbhLHAbhNGAbhSSAbhTAbiTAbhZAbiHAyFAyIyKAyRAyZHArNArOsErPArQArRArSAsHAsIBE ANGwCHA
wDAwEwFAwGAyAwHAyAwIxYwJAwKAwPAwRAAwSHAwTAxSAwUxEwZAxHArTAsODO ALI GALI TAbfZHAxNGwBAwCHAwDAxZAwE
wGAyAwHAAwIwJAxIAwKAwLONG VOWEL SIGNwMAwNIAwOxEwPAwQAwTAxSAwUxEwWAwYAsSArUsErWArYArZAsHIsRAkMANCH
U COMMArFULL STOPkNIRUGUkROTATED BIRGAx WITH DOUBLE ORNAMENTbdORNAMENTkSIBE SYLLABLE BOUNDARY MAR
KERlWIRL BIRGAv WITH DOUBLE ORNAMENTbbORNAMENTkTODO SOFT HYPHENlRIPLE BIRGA WITH ORNAMENTlURNED S
WIRL BIRGA WITH DOUBLE ORNAMENTkVOWEL SEPARATORdKEYg FACEdOGRAM FOR EARTHnYANGoINeRAILeSTABLE SYM
BOLcOD BUBBLEdN CAKEfVIEWING CEREMONYcSQUEfITOcTHER CHRISTMASdOR BOATgSCOOTERfIZED WHEELCHAIRfWAY
cUNT FUJIfAINi BICYCLISTjCABLEWAYjRAILWAYdSEf FACEgTRAPdTHcVIE CAMERAcYAIbRO DANDAfIGIT EIGHTkFIV
ElOURkNINEkONEkSEVENlIXkTHREElWOkZEROfOUBLE DANDAeLETTER AlBAlCHUlDAnIlEmAlHAInOlKEAAEmHAImOlLAnN
lMAEMmIMlNGImINlOmLmOlPAmHIlRImOlSHIlTAmEKmHEAlWAlYObUCH GREATER-THANfLESS-THANcLTANI LETTER ApBA
qHApCAqHApDAqDArDArHAqHApEpGAqHApHApIpJAqJApKAqHApLApMApNAqNAqYApPAqHApRAqHAqRApSApTAqHAqTArHApUp
VApYAiSECTION MARKeIMAPfPLE MUSICAL NOTEShICATION SIGN IN DOUBLE CIRCLExLEFT HALF CIRCLExRIGHT HA
LF CIRCLExTRIANGLEuWITH DOT ABOVEzUNDERBARpXfSETi MULTIPLICATIONjUNIONcSHROOMdIC FLAT SIGNgNATURA
L SIGNgSHARP SIGNfAL KEYBOARDq WITH JACKSiNOTEiSCOREjYMBOL ARPEGGIATO DOWNbaUPpBEGIN BEAMvPHRASEv
SLURvTIEqRACEtKETrEATH MARKsVEtISv RESTpC CLEFqAESURAqIRCLE X NOTEHEADqLIMACUSsVISrUSTER NOTEHEA
D BLACKbgWHITEqODArMBINING ACCENTbf-STACCATObaUGMENTATION DOTzBENDzDOITbbUBLE TONGUEbbWN BOWzFLAG
-1be2be3be4be5bbIPzHARMONICzLOUREzMARCATObg-STACCATOzRIPzSMEARbaNAP PIZZICATObaPRECHGESANG STEMba
TACCATISSIMObgObbEMzTENUTObaREMOLO-1bh2bh3bbIPLE TONGUEzUP BOWsMON TIMEqRESCENDOrOIXqUT TIMEpDA C
APOrL SEGNOrMPt ALLrSHED BARLINEqECRESCENDOrGREE SLASHqOUBLE BARLINEwFLATwSHARPqRUM CLEF-1z2pEIGH
TH NOTEwRESTqND BEAMtOF STIMMEtPHRASEtSLURtTIEpF CLEFv OTTAVA ALTAbdBASSAqERMATAw BELOWqINAL BARL
INEsGERED TREMOLO-1bg2bg3rVE-LINE STAFFqLAT DOWNuUPqORTErUR-LINE STAFFuSTRING FRETBOARDqUSA BLACK
uWHITEpG CLEFv OTTAVA ALTAbdBASSAqLISSANDO DOWNzUPqRACE NOTE NO SLASHbaSLASHrEGORIAN C CLEFzF CLE
FpHALF NOTEuPEDAL MARKuRESTrUPTSTIMMEpINVERTED TURNpKIEVAN C CLEFwEIGHTH NOTE STEM DOWNbnUPxND O
F PIECEwFINAL NOTExLAT SIGNwHALF NOTEwQUARTER NOTE STEM DOWNboUPwRECITATIVE MARKwWHOLE NOTEqORONp
LEFT REPEAT SIGNqONGAu IMPERFECTA RESTvPERFECTA RESTpMAXIMAqEZZOqINIMAv BLACKwRESTqOON NOTEHEAD B
LACKbdWHITEqULTI RESTuPLE MEASURE RESTpNATURAL DOWNxUPqEBENSTIMMEqOTEHEAD BLACKqULL NOTEHEADpON
E HUNDRED TWENTY-EIGHTH NOTEbpRESTs-LINE STAFFqRNAMENT STROKE-1bg0bg1bf2bf3bf4bf5bf6bf7bf8bf9qTTA
VA ALTAwBASSApPARENTHESIS NOTEHEADqEDAL MARKvUP MARKrS SUBPUNCTISqIANOqLUS NOTEHEADqODATUSrRRECTU
Sy FLEXUSpQUARTER NOTExRESTxTONE FLATbcSHARPrINDICESIMA ALTAbcBASSApREPEAT DOTSvED FIGURE-1bf2bf3
rVERSE FINAL BARLINEqIGHT REPEAT SIGNrNFORZANDOpSCANDICUSy FLEXUSqEGNOrMIBREVIS BLACKbaRESTbaWHIT
EtMINIMA BLACKbaRESTbaWHITEqHARP DOWNvUPrORT BARLINEqINGLE BARLINErX-LINE STAFFtSTRING FRETBOARDs
TEENTH NOTEzRESTtY-FOURTH NOTEbcRESTqORIqQUARE BwNOTEHEAD BLACKbfWHITEqUBITOpTEMPUS IMPERFECTUM C
UM PROLATIONE IMPERFECTAch DIMINUTION-1ct2ct3bxPERFECTAwPERFECTUM CUM PROLATIONE IMPERFECTAbvPERF
ECTAcd DIMINUTION-1qHIRTY-SECOND NOTEbdRESTrREE-LINE STAFFqORCULUSx RESUPINUSqRrIANGLE NOTEHEAD D
OWN BLACKbmWHITEbhLEFT BLACKbmWHITEbhRIGHT BLACKbnWHITEbhUP BLACKbkRIGHT BLACKbqWHITEbkWHITEx-ROU
ND NOTEHEAD DOWN BLACKbsWHITEqURNt SLASHuUPqWO-LINE STAFFpVIRGAqOID NOTEHEADpWHOLE NOTEvRESTqIT
H FINGERNAILSpX NOTEHEADpZbVSbYANMAR CONSONANT SIGN MEDIAL HAbeRAbeWAbeYAyON MEDIAL LAbiMAbiNAxSH
AN MEDIAL WAiDIGIT EIGHToFIVEpOURoNINEoONEoSEVENpIXoTHREEpWOoZEROiLETTER AqITON RAqUpBAqHApCAqHAp
DAqDArHAqHApEqASTERN PWO KAREN GHWAbhNNAbhYWApGAqHAqREAT SApHApIqIpJAqHApKAqHAsMTI CAxHAwDDAyHAxH
AwFAwGAwHAxHAwJAxHAwLLAwNAxYAwRAwSAwTTAyHAwXAwZApLAqLApMAqON BBAvEtEtJHAtNGApNAqGAqNArYAqYApOpPAq
HApRAqUMAI PALAUNG FApSAqGAW KAREN SHAqHAsN AuBAvHAuCAvHAuDAuFAuGAvHAuHAuJHAuKAvHAuNAvNAvYAuPHAuT
HAuZArWE PALAUNG CHAbcSHAqSApTArI LAING BAbaHAzDAbaDAbbHAbaHAzFAzGAbaHAzJAbaHAzLLAzNNAbaYAqHAqTAr
HApUqUpVOCALIC LyLxRyRpWAqESTERN PWO KAREN PWAbhTHApYAjOGOGRAM KHAMTI HMyOAYyQNiMODIFIER LETTER K
HAMTI REDUPLICATIONySHAN REDUPLICATIONiSHAN DIGIT EIGHTtFIVEuOURtNINEtONEtSEVENuIXtTHREEuWOtZEROj
IGN ANUSVARAoSATnDOT BELOWnKHAMTI TONE-1z3nLITTLE SECTIONnPAO KAREN TONEnRUMAI PALAUNG TONE-5nSEC
TIONoHAN COUNCIL EMPHATIC TONEbaTONE-2bf3sSAWsTONE-2x3x5x6nTAI LAING TONE-2bc5nVIRAMApSARGAnWESTE
RN PWO KAREN TONE-1bk2bk3bk4bk5jYMBOL AFOREMENTIONEDqITON EXCLAMATIONvONEvTWOpCOMPLETEDpGENITIVEp
LOCATIVEpSHAN EXCLAMATIONuONEiTAI LAING DIGIT EIGHTyFIVEzOURyNINEyONEySEVENzIXyTHREEzWOyZEROjON
E MARK SGAW KAREN HATHIbdKE PHOiVOWEL SIGN AAuIvTON AbaItEu ABOVEtGEBA KAREN ItIuItKAYAH EEzOEzUt
MON IIxOtSGAW KAREN EUuHAN AAyEz ABOVEyFINAL YtTALL AAtUuUtVOCALIC LbcLbbRbcRtWESTERN PWO KAREN E
UblUE"),
  ('N', "
aN-ARY CIRCLED DOT OPERATORoPLUS OPERATORoTIMES OPERATORhOPRODUCTgINTERSECTIONgLOGICAL ANDoORgPRO
DUCTgSQUARE INTERSECTION OPERATORnUNION OPERATORhUMMATIONgTIMES OPERATORgUNIONl OPERATOR WITH DOT
baPLUSgWHITE VERTICAL BARbABATAEAN CRUCIFORM NUMBER FOURkLETTER ALEPHsYINrBETHrDALETHrFINAL ALEPH
xBETHxHExKAPHxLAMEDHxMEMxNUNxSHINxYODHrGIMELrHEtTHrKAPHrLAMEDHrMEMrNUNrPErQOPHrRESHrSADHEtMEKHsHI
NrTAWsETHrWAWrYODHrZAYINkNUMBER FIVEsOURrONEu HUNDREDrTENsHREEsWENTYtOdLAcIL POLISHdRA SIGNcME BA
DGEcNDeINAGARI HEADSTROKEmLETTER AuAuIuUtBAuHAtCAuHAtDAuDAvHAuHAtEtGAuHAtHAtIuItJAuHAtKAuHAtLAuLA
tMAtNAuGAuNAuYAtOtPAuHAtRAuRAtSAuHAuSAtTAuHAuTAvHAtUuUtVAuOCALIC RbcRtYAmSIGN ANUSVARAsVAGRAHArSI
DDHAMrVIRAMAtSARGAmVOWEL SIGN AAyIyUxExIyIxOxPRISHTHAMATRA ExUyUxVOCALIC RbgRcRROW NO-BREAK SPACE
cTIONAL DIGIT SHAPESjPARKcUSEATED FACEcZAR AMULETbECKTIEcGATED DOUBLE VERTICAL BAR DOUBLE RIGHT T
URNSTILEfIVE CIRCLED DIGIT ZEROrLATIN CAPITAL LETTER AbmBbmCbmDbmEbmFbmGbmHbmIbmJbmKbmLbmMbmNbmOb
mPbmQbmRbmSbmTbmUbmVbmWbmXbmYbmZrNUMBER EIGHTEENzLEVENyFIFTEENzOURTEENyNINETEENySEVENTEENzIXTEENy
THIRTEENzWELVEbbNTYrSQUARErTRIANGLEjDIAGONAL CROSSsDIAMONDsMIDDLE RIGHT TO LOWER CENTREjSQUARED A
BrCROSS MARKrICrLATIN CAPITAL LETTER AbmBbmCbmDbmEbmFbmGbmHbmIbmJbmKbmLbmMbmNbmObmPbmQbmRbmSbmTbm
UbmVbmWbmXbmYbmZrPArQUESTION MARKrSArWCcITHER A SUBSET OF NOR EQUAL TOmPERSET OF NOR EQUAL TOjPPR
OXIMATELY NOR ACTUALLY EQUAL TOiGREATER-THAN NOR EQUAL TObcIVALENT TOzLESS-THANiLESS-THAN NOR EQU
AL TOzIVALENT TOwGREATER-THANcPTUNEh FORM TWOcRD FACEcSSUSdT WITH EGGSeING DOLLScUTEReRAL CHESS B
ISHOPu ROTATED NINETY DEGREESbdTWO HUNDRED SEVENTY DEGREESoEQUIHOPPERy ROTATED NINETY DEGREESoKIN
Gs ROTATED NINETY DEGREESbbTWO HUNDRED SEVENTY DEGREESpNIGHTu ROTATED FORTY-FIVE DEGREESbdNINET
Y DEGREESbdONE HUNDRED THIRTY-FIVE DEGREESbdTHREE HUNDRED FIFTEEN DEGREESbeWO HUNDRED SEVENTY DEG
REESbpTWENTY-FIVE DEGREESoPAWNs ROTATED NINETY DEGREESbbTWO HUNDRED SEVENTY DEGREESoQUEENt ROTATE
D NINETY DEGREESbcTWO HUNDRED SEVENTY DEGREESoROOKs ROTATED NINETY DEGREESbbTWO HUNDRED SEVENTY D
EGREESoTURNED BISHOPvKINGwNIGHTvPAWNvQUEENvROOKiFACEcW MOON SYMBOLjWITH FACEeSHEQEL SIGNeTAI LU
E DIGIT EIGHTsFIVEtOURsNINEsONEsSEVENtIXsTHREEtWOsZEROmLETTER FINAL BzDzKzMzNbaGzVtHIGH BAyDAyFAy
HAyKAzVAyLAyMAyNAzGAyPAzHAyQAySAzUAyTAzHAzSAyVAyXAzVAyYAtLOW BAxDAxFAxHAxKAyVAxLAxMAxNAyGAxPAyHAx
QAxSAyUAxTAyHAySAxVAxXAyVAxYAmSIGN LAEuVmTHAM DIGIT ONEnONE MARK-1w2mVOWEL SIGN AAzYyEyYxExIIyYxO
yAzYyYxUyEzYyUyYxVOWEL SHORTENERdA ABBREVIATION SIGNfCOMMAfDANDAgIGIT EIGHTlFIVEmOURlNINElONElSEV
ENmIXlTHREEmWOlZEROgOUBLE COMMAmDANDAfGAP FILLERfINSERTION SIGNfLETTER AnAnInUmBAnHAmCAnHAmDAnDAo
HAnHAmEmGAnHAmHAmInImJAnHAmKAnHAmLAnHAmMAnHAmNAnGAoHAnHAnNAnYAoHAmOmPAnHAmRAnHAmSAnHAnSAmTAnHAnTA
oHAmUnUmVEDIC ANUSVARAnOCALIC LvLuRvRmWAmYAfOMfPLACEHOLDER MARKfSANDHI MARKgIDDHIhGN ANUSVARAlVAG
RAHAkCANDRABINDUkFINAL ANUSVARAkJIHVAMULIYAkNUKTAkUPADHMANIYAkVIRAMAmSARGAfVOWEL SIGN AArIrUqEqIr
IqOqUrUqVOCALIC LzLyRzRdLINE LEFTiRIGHTdSPAPERcXT PAGEbIGHT WITH STARScNJAbKO COMBINING DOUBLE DO
T ABOVEoLONG DESCENDING TONEtHIGH TONEtLOW TONEtRISING TONEoNASALIZATION MARKoSHORT HIGH TONEuLO
W TONEuRISING TONEhMAeDANTAYALANfIGIT EIGHTkFIVElOURkNINEkONEkSEVENlIXkTHREElWOkZEROfOROME SIGNeE
XCLAMATION MARKeHIGH TONE APOSTROPHEeLAJANYALANfETTER AlBAlCHAlDAnGBASINNAlEmElFAlGBAlHAlIlJAmON
A CHAqJAqRAlKAlLAlMAlNmAn WOLOSOmYAo WOLOSOlOmOlPAlRAmRAlSAlTAlUlWAlYAfOW TONE APOSTROPHEeSYMBO
L GBAKURUNENlOO DENNENeTAMAN SIGNbNBSPbO BICYCLESdENTRYi SIGNdMOBILE PHONESdONE UNDER EIGHTEEN SY
MBOLdPEDESTRIANSeIRACYdSMOKING SYMBOLcMINAL DIGIT SHAPESeSMA SIGNcN-BREAKING HYPHENePOTABLE WATE
R SYMBOLdFORKINGcRdDIC MARK SIGNdMAL SUBGROUP OFs OR EQUAL TOdTH EAST AND SOUTH WEST ARROWmRROW
q AND SOUTH EAST ARROWrCROSSING NORTH WEST ARROWbaSOUTH EAST ARROWrWITH HOOKlBLACK ARROWlDOUBLE A
RROWlPOINTING BUDuLEAFuVINE LEAFlSANS-SERIF ARROWlTRIANGLE-HEADED ARROWbg TO BARlWHITE ARROWgINDI
C FRACTION ONE EIGHTHzHALFzQUARTERzSIXTEENTHvTHREE QUARTERSbbSIXTEENTHSmPLACEHOLDER MARKmQUANTIT
Y MARKpRTER MARKmRUPEE MARKgWEST AND SOUTH EAST ARROWmRROWq AND NORTH EAST ARROWrCROSSING NORTH E
AST ARROWrTO CORNERuLONG BARrWITH HOOKlBLACK ARROWlDOUBLE ARROWlPOINTING BUDuLEAFuVINE LEAFlSANS
-SERIF ARROWlTRIANGLE-HEADED ARROWbg TO BARlWHITE ARROWfEAST-POINTING AIRPLANEcSEcT A SUBSET OFiP
ERSET OFfLMOST EQUAL TOfN ELEMENT OFfSYMPTOTICALLY EQUAL TOeCHECK MARKeEQUAL TOhIVALENT TOeGREATE
R-THANeIDENTICAL TOeLESS-THANeNORMAL SUBGROUP OFw OR EQUAL TOePARALLEL TOeSQUARE IMAGE OF OR EQUA
L TOlORIGINAL OF OR EQUAL TOeTILDEfRUEdCHED LEFT SEMICIRCLE WITH THREE DOTSjOWER RIGHT-SHADOWED W
HITE RIGHTWARDS ARROWiRIGHT SEMICIRCLE WITH THREE DOTSiUPPER RIGHT-SHADOWED WHITE RIGHTWARDS ARRO
WdEe PADhGEeBOOKi WITH DECORATIVE COVERbUMBER EIGHTEEN FULL STOPiLEVEN FULL STOPhFIFTEEN FULL STO
PiOURTEEN FULL STOPhNINETEEN FULL STOPhSEVENTEEN FULL STOPiIXTEEN FULL STOPhTEN FULL STOPiHIRTEE
N FULL STOPiWELVE FULL STOPkNTY FULL STOPdERO SIGNcSHU CHARACTER-1B170u1u2u3u4u5u6u7u8u9uAuBuCuDu
EuFt80u1u2u3u4u5u6u7u8u9uAuBuCuDuEuFt90u1u2u3u4u5u6u7u8u9uAuBuCuDuEuFtA0u1u2u3u4u5u6u7u8u9uAuBuCu
DuEuFtB0u1u2u3u4u5u6u7u8u9uAuBuCuDuEuFtC0u1u2u3u4u5u6u7u8u9uAuBuCuDuEuFtD0u1u2u3u4u5u6u7u8u9uAuBu
CuDuEuFtE0u1u2u3u4u5u6u7u8u9uAuBuCuDuEuFtF0u1u2u3u4u5u6u7u8u9uAuBuCuDuEuFs200u1u2u3u4u5u6u7u8u9uA
uBuCuDuEuFt10u1u2u3u4u5u6u7u8u9uAuBuCuDuEuFt20u1u2u3u4u5u6u7u8u9uAuBuCuDuEuFt30u1u2u3u4u5u6u7u8u9
uAuBuCuDuEuFt40u1u2u3u4u5u6u7u8u9uAuBuCuDuEuFt50u1u2u3u4u5u6u7u8u9uAuBuCuDuEuFt60u1u2u3u4u5u6u7u8
u9uAuBuCuDuEuFt70u1u2u3u4u5u6u7u8u9uAuBuCuDuEuFt80u1u2u3u4u5u6u7u8u9uAuBuCuDuEuFt90u1u2u3u4u5u6u7
u8u9uAuBuCuDuEuFtA0u1u2u3u4u5u6u7u8u9uAuBuCuDuEuFtB0u1u2u3u4u5u6u7u8u9uAuBuCuDuEuFtC0u1u2u3u4u5u6
u7u8u9uAuBuCuDuEuFtD0u1u2u3u4u5u6u7u8u9uAuBuCuDuEuFtE0u1u2u3u4u5u6u7u8u9uAuBuCuDuEuFtF0u1u2u3u4u5
u6u7u8u9uAuBgITERATION MARKcT AND BOLTbYIAKENG PUACHUE HMONG CIRCLED CAxDIGIT EIGHTbdFIVEbeOURbdN
INEbdONEbdSEVENbeIXbdTHREEbeWObdZEROxLETTER AbfAbeCAbeDAbfLAbeEbfEbeFAbeGAbeHAbgHbeIbeKAbeLAbeMAb
fLAbeNAbfCAbfKAbfPAbgLAbfQAbfRAbfTAbgSAbgXAbfYAbeObfObePAbfLAbeQAbeRAbfRAbeSAbeTAbfSAbfXAbeUbeVAb
eWbeXAbfYAbeYAbeZAyOGOGRAM NYAJxSIGN FOR ANIMALbgINVERTEBRATEbgLOCATIONbgPERSONbgTHINGbcXW XWyYLL
ABLE LENGTHENERxTONE-BbcDbcGbcJbcMbcSbcV"),
  ('O', "
aOBJECT REPLACEMENT CHARACTERcLIQUE ANGLE OPENING DOWNwUPiHYPHENcSERVER EYE SYMBOLbCR AMOUNT OF C
HECKeBELT BUCKLEfOW TIEfRANCH BANK IDENTIFICATIONeCHAIRfUSTOMER ACCOUNT NUMBEReDASHfOUBLE BACKSLA
SHeFORKeHOOKeINVERTED FORKcTAGONAL SIGNdOPUSbDENbFFICE BUILDINGbGHAM FEATHER MARKgLETTER AILMnBEI
THnCEIRToOLLnDAIRnEABHADHpDHADHpMHANCHOLLnFEARNnGORTnIFINoODHADHnLUISnMUINnNGEADALoIONnONNoRnPEIT
HnRUISnSAILoTRAIFnTINNEnUATHoILLEANNoRgREVERSED FEATHER MARKgSPACE MARKcONEKbHM SIGNbIL DRUMbK HA
ND SIGNbL CHIKI AHADjDIGIT EIGHTpFIVEqOURpNINEpONEpSEVENqIXpTHREEqWOpZEROjGAAHLAA TTUDDAAGjLETTE
R AAJsKsMsWrGrLrNGrTqEDDrNrPrRRqIHrNYrRrSqLAsArErIrOrUqOBrHrTTrVqUCrDrNNrYjMU TTUDDAGl-GAAHLAA TT
UDDAAGjPHAARKAAkUNCTUATION DOUBLE MUCAADvMUCAADjRELAAcD CHINESE HOOK MARKmITERATION MARKeHUNGARIA
N CAPITAL LETTER AbeAbeKbeMBbeNDbdCLOSE EbdEbeBbeCbfHbfSbeDbeEbeFbeGbfYbeHbeJbeKbeLbfYbeMbfPbeNbf
CbfTbg-SHAPED SIGNbfYbePbeRbeSbfZbeTbfYbeVbeZbfSbdIbeIbdNIKOLSBURG OEboUEbdObeEEbeObdRUDIMENTA OE
bnUEbdSHORT ERbdUbeNKbeSbeUoNUMBER FIFTYxVEvONEy HUNDREDzTHOUSANDvTENoSMALL LETTER AbcAbcKbcMBbcN
DbbCLOSE EbbEbcBbcCbdHbdSbcDbcEbcFbcGbdYbcHbcJbcKbcLbdYbcMbdPbcNbdCbdTbe-SHAPED SIGNbdYbcPbcRbcSb
dZbcTbdYbcVbcZbdSbbIbcIbbNIKOLSBURG OEbmUEbbObcEEbcObbRUDIMENTA OEblUEbbSHORT ERbbUbcNKbcSbcUeITA
LIC LETTER AsBEsCHEsDEsEtFtKStLtMtNtRuStSuHuSsHEsItIsKAtEtHEtUsNORTHERN TSEsOsPEtHEsSHEtOUTHERN T
SEsTEtHEsUtUsVEsYEsZElNUMERAL FIFTYvVEtONEtTENeKEYeNORTH ARABIAN LETTER AINbaLEFzBEHzDADbbLzES-1b
c2bc3zFEHzGEEMbaHAINzHAHbaEHzKAFbaHAHzLAMzMEEMzNOONzQAFzREHzSADzTAHbaEHbaHALbbEHzWAWzYEHzZAHbbINs
NUMBER ONEzTENbaWENTYePERMIC LETTER ANsBURsCHERYsDOItZHOIuITAsEtFsGAIsHAsItAtEsKOKEsLEIsMENOEsNEN
OEsOtOsPEEIsREIsSHCHOOIuOOItIIsTAItSIUsUsVERtOOIsYAuTtERvIvUtRYtUsZATAtHOIhSIAN NUMBER HUNDREDtON
EtTENuWENTYvOmSIGN AsURAMAZDAAbb-2bbHArBAtGAsUUMISHrCArDAtHYAAUSHba-2sIsUrFArGAsUrHArIrJAsIrKAsUr
LArMAsIsUrNAsUrPArRAsUrSAsHAsSArTAsHAsUrUrVAsIrXAsSHAAYATHIYArYArZAmWORD DIVIDERiONAL COMPUTEReSO
GDIAN FRACTION ONE HALFmLETTER ALEPHvTERNATE AYINuYINtBETHtFINAL ALEPHzBETHzHEzNUNbc WITH VERTICA
L TAILzSADHEbe WITH VERTICAL TAILzTAWbc WITH VERTICAL TAILtGIMELtHEvTHtKAPHtLAMEDHtMEMtNUNtPEtRES
H-AYIN-DALETHtSADHEvMEKHuHINtTAWtWAWtYODHtZAYINnIGATURE AYIN-DALETHmNUMBER FIVEuOURtONEw HUNDREDt
TENuHIRTYvREEuWENTYvOgUTH ARABIAN LETTER ALEFbaYNzBETHzDALETHbaHADHEbcLETHzFEzGHAYNbaIMELzHEbbTHz
KAPHbaHETHzLAMEDHzMEMzNUNzQOPHzRESHzSADHEbbMEKHbbTbaHINzTAWbaETHbaHAWbbETHzWAWzYODHzZAYNsNUMBER F
IFTYzONEvERIC INDICATOReTURKIC LETTER ORKHON AbaBbaDbaEBbbDbbGbbKbbLbbNbbRbbSbbTbbYbaGbaLbaNbaQba
RbaSbbHbaTbaYzBASHzECbaLTbaMbaNCbbGbbTbbYbaPbaSHbaZzIbaCbaQzObaEbbKbaPbaQbaTsYENISEI AbbBbbDbbEbc
BbcGbcKbcNbdGbcTbcYbbGbbLbbNGbbQbbRbbSHbbTbbYbaEbbCbbNCbcTbcYbbSHbbZbaIbbQbaOEbcKbbQeUYGHUR COMBI
NING DOT ABOVEzBELOWvTWO DOTS ABOVEbeBELOWlLETTER ALEPHsBETHsFINAL HETHsGIMEL-HETHsKAPHsLAMEDHtES
HsMEMsNUNsPEsRESHsSADHEuMEKHtHINsTAWsWAWsYODHsZAYINlPUNCTUATION BARxFOUR DOTSxTWO BARSbbDOTSdER A
DULTgMANgWOMANcIVEbM SYMBOLbN WITH EXCLAMATION MARK WITH LEFT RIGHT ARROW ABOVEcCOMING AUTOMOBILE
jBUSjFIRE ENGINEjPOLICE CARjTAXIcE BUTTON MOUSEeDOT LEADERiOVER TWO DOTS PUNCTUATIONd-PIECE SWIMS
UITcIONbPEN BOOKhXfCENTRE ASTERISKmBLACK STARmCROSSmTEARDROP-SPOKED ASTERISKfFILE FOLDERgOLDERfHA
NDS SIGNfLOCKfMAILBOX WITH LOWERED FLAGsRAISED FLAGfSUBSEThPERSETe-CIRCUIT-OUTPUT H-TYPE SYMBOLuL
-TYPE SYMBOLfOUTLINED RIGHTWARDS ARROWcHIUCHUScPOSITIONcTICAL DISCm ICONeON KEYbR WITH DOT INSIDE
cANGE BOOKhHEARTfUTANcIGINAL OFdYA AI LENGTH MARKhU LENGTH MARKgDIGIT EIGHTmFIVEnOURmNINEmONEmSEV
ENnIXmTHREEnWOmZEROgFRACTION ONE EIGHTHtHALFtQUARTERtSIXTEENTHpTHREE QUARTERSvSIXTEENTHSgISSHARgL
ETTER AoAoIoUnBAoHAnCAoHAnDAoDApHAoHAnEnGAoHAnHAnIoInJAoHAnKAoHAnLAoLAnMAnNAoGAoNAoYAnOnPAoHAnRAo
HAoRAnSAoHAoSAnTAoHAoTApHAnUoUnVAoOCALIC LwLvRwRnWAnYAoYAgSIGN ANUSVARAmVAGRAHAlCANDRABINDUlNUKTA
lOVERLINElVIRAMAnSARGAgVOWEL SIGN AAsIsUrErIsIrOrUsUrVOCALIC LbaLzRbaRcNATE LEFT PARENTHESIShRIGH
T PARENTHESIScTHODOX CROSSbSAGE CAPITAL LETTER AwHwIxNvBRAvCHAvDHAvEwHCHAxKAxPAxTAySAwINvGHAvHAwY
AvIvKAwHAwYAvLAvMAvNAvOwINvPAvSAwHAvTAwSAxHAvUvWAvZAwHAgSMALL LETTER AuHuIvNtBRAtCHAtDHAtEuHCHAvK
AvPAvTAwSAuINtGHAtHAuYAtItKAuHAuYAtLAtMAtNAtOuINtPAtSAuHAtTAuSAvHAtUtWAtZAuHAcMANYA DIGIT EIGHToF
IVEpOURoNINEoONEoSEVENpIXoTHREEpWOoZEROiLETTER AqAqLEFpBApCAYNpDEELqHApEqEpFApGApHApIpJApKAAFqHAp
LAANpMIINpNUUNpOqOpQAAFpRApSAqHIINpTApUpWAWpXApYAbTTERdOMAN SIYAQ ALTERNATE NUMBER EIGHTbfFIVEbgO
URbj HUNDREDbfNINEbfSEVENbgIXbi HUNDREDbfTENbi THOUSANDbgHREEbgWObi THOUSANDoFRACTION ONE HALFbbS
IXTHoMARRATANoNUMBER EIGHTba HUNDREDbbTHOUSANDbaYbb THOUSANDvFIFTYba THOUSANDxVEz HUNDREDbaTHOUSA
NDwORTYba THOUSANDxURz HUNDREDbaTHOUSANDvNINEz HUNDREDbaTHOUSANDzTYbb THOUSANDvONEy HUNDREDzTHOUS
ANDvSEVENba HUNDREDbbTHOUSANDbaTYbc THOUSANDwIXy HUNDREDzTHOUSANDyTYba THOUSANDvTENy THOUSANDwHIR
TYbb THOUSANDxREEba HUNDREDbbTHOUSANDwWENTYbb THOUSANDxOy HUNDREDzTHOUSANDbUNCE SIGNcTBOX TRAYdLI
NED BLACK STARjGREEK CROSSjLATIN CROSSjWHITE STARbVERHEATED FACEeLAPhPING BLACK SQUARESmWHITE AN
D BLACK SQUARESsSQUARESfINEbWLbXbYSTER"),
  ('P', "
aPACKAGEcGEe FACING UPfWITH CIRCLED TEXTlURLeReSdODAcHAWH HMONG CLAN SIGN FAJxHAMzWJxKHAByOOyWMxL
AUJyISxMUASxPHABxTHOJySABzHEEJzWBxVAJyWJxXYOOJxYAJyEEGoONSONANT AUxCAUyHAUxHAUyLAUyNAUxLAUxMAUxNA
UyCHAUyKAUyLAUyTHAUzSAUxPLHAUxQHAUxRAUxVAUxXAUxYAUnDIGIT EIGHTtFIVEuOURtNINEtONEtSEVENuIXtTHREEuW
OtZEROnMARK CIM HOMwKESxHAVwSOxUAMwTAUMxUBnNUMBER HUNDRED MILLIONSbbSuMILLIONSuTEN BILLIONSyTHOUS
ANDSxSvRILLIONSnSIGN AVsCIM CHEEMxUAM TSHOOJwHAIS LUS NTOG NTOGwNRES TOSwPUB DAWBwTSOV ROGxXWVb
a CHWVsHLItNUBsIB YAMsLOSsMEEJ SUABxTSEEBtUSsNQIGtTUJsTAUtHIRD-STAGE HLItXHEEJ CEEVsVOS FEEMwLUBw
NRUAwSEEVwTHIAByOMxSHAB CEEBsXAUStIABtYEEM FAIByNTXIVyRHOyTOVuOOsZWJ THAJnVOWEL KAABwVvBvIBwVvUBw
VvVvWBwVuEBvEBwVvVuIABwVvBvVuOBvOBwVvVuUABwVvBvVuWBvVcLLASdM BRANCHfDOWN HANDfTREEfUP HANDeS UP T
OGETHEReYRENE LEFT-POINTING FLEURONmTTER ALEPHsYINrBETHrDALETHrFINAL NUNrGIMELrHEtTHrKAPHrLAMEDHr
MEMrNUNrPErQOPHrRESHrSADHEtMEKHsHINrTAWsETHrWAWrYODHrZAYINkNUMBER FIVEsOURrONErTENsHREEsWENTYtOkR
IGHT-POINTING FLEURONcNCAKESdDA FACEcPERCLIPcRACHUTEeGRAPH SEPARATORjOSjUS MARKeLLEL TOjWITH HORI
ZONTAL STROKEoTILDE OPERATORdENTHESIZED DIGIT EIGHTuFIVEvOURuNINEuONEuSEVENvIXuTHREEvWOoHANGUL CH
IEUCHbc AwIEUCba AbbUvHIEUHba AvIEUNGba AvKHIEUKHbc AwIYEOKbb AvMIEUMba AvNIEUNba AvPHIEUPHbc AwI
EUPba AvRIEULba AvSIOSz AvTHIEUTHbc AwIKEUTbb AoIDEOGRAPH ALLIANCEyCALLzONGRATULATIONyEARTHzIGHTz
NTERPRISEyFESTIVALzINANCIALbaREbaVEzOURyHAVEyLABORyMETALzOONyNAMEzINEyONEyREACHbaPRESENTbaSOURCEb
bTySELFbaVENzIXzOCIETYzPECIALzTOCKbaUDYzUNbaPERVISEyTENzHREEzWOyWATERzOODoKOREAN CHARACTER O HUbg
JEONoLATIN CAPITAL LETTER AbjBbjCbjDbjEbjFbjGbjHbjIbjJbjKbjLbjMbjNbjObjPbjQbjRbjSbjTbjUbjVbjWbjXb
jYbjZuSMALL LETTER AbhBbhCbhDbhEbhFbhGbhHbhIbhJbhKbhLbhMbhNbhObhPbhQbhRbhSbhTbhUbhVbhWbhXbhYbhZoN
UMBER EIGHTEENwLEVENvFIFTEENwOURTEENvNINETEENvSEVENTEENwIXTEENvTENwHIRTEENwWELVEyNTYdROTdT ALTERN
ATION MARKeIAL DIFFERENTIALhLY-RECYCLED PAPER SYMBOLeNERSHIP SIGNeY POPPERcSSED SYMBOLfNGER SHIPe
IVE-PULL-DOWN-OUTPUT SYMBOLnUP-OUTPUT SYMBOLePORT CONTROLcU CIN HAU GLOTTAL STOPy FINALzVARIANTmL
ETTER AtBAtCAuHAtDAtEtFAuINAL KzLzMzNbaGzPzTzWzYtGAtHAtIuAtKAuHAtLAtMAtNAuGAtOtPAuHAtRAtSAtTAuHAt
UuAtVAtZAnOW-FALLING TONEbc FINALbdLONGbh FINALmMID-LEVEL TONEba FINALbbLONG FINALmRISING TONEx F
INALyLONGbc FINALmSANDHI GLOTTAL STOPbf FINALtTONEx FINALyLONGbc FINALcW PRINTSbDFcIbEACE SYMBOLe
HeOCKdNUTSdRcDESTRIANcN OVER STAMPED ENVELOPEdCILdGUINdSIVE FACEdTAGRAMcOPLE HUGGINGcR MILLE SIGN
eSIGNeTEN THOUSAND SIGNdFORMING ARTSdMANENT PAPER SIGNdPENDICULARn WITH SdSEVERING FACEeON BOWIN
G DEEPLYhCLIMBINGhDOING CARTWHEELhFROWNINGhIN LOTUS POSITIONkSTEAMY ROOMhRAISING BOTH HANDS IN CE
LEBRATIONhWITH BALLnLOND HAIRmCROWNmFOLDED HANDSmHEADSCARFmPOUTING FACEgAL COMPUTERePECTIVEcSET
A SIGNdO SIGNcTRI DISHbHAGS-PA DOUBLE HEAD MARKjLETTER ArLTERNATE YArSPIRATED FAqBAqCAsNDRABINDUr
HAqDArDArZAqErEqFAqGArGAqHAqIqJAqKArHAqLAqMAqNArGArNArYAqOqPArHAqQAqRAqSArHArMALL AqTArHArSAsHArT
AsHAqUqVOICED HAvLESS SHAqWAqXAqYAqZArHAjMARK DOUBLE SHADoSHADjSINGLE HEAD MARKkUBJOINED LETTER R
AbaWAbaYAlPERFIXED LETTER RAdISTOS DISC SIGN ARROWtBEEwHIVEuOOMERANGvWuULLS LEGtCAPTIVEvRPENTRY P
LANEvTuHILDuLUBuOLUMNvMBxINING OBLIQUE STROKEtDOLIUMvVEtEAGLEtFLUTEtGAUNTLETuRATERtHELMETuIDEuORN
tLIDvLYtMANACLESvTTOCKtOX BACKtPAPYRUSuEDESTRIANuLANE TREEvUMED HEADtRAMuOSETTEtSAWuHIELDwPuLINGu
MALL AXEuTRAINERtTATTOOED HEADuIARAuUNNYtVINEtWAVY BANDuOMANcILIPPINE DOUBLE PUNCTUATIONlSINGLE P
UNCTUATIONcOENICIAN LETTER AINtLFsBETsDELTsGAMLsHEuTsKAFsLAMDsMEMsNUNsPEsQOFsROSHsSADEtEMKtHINsTA
UtETsWAUsYODsZAIlNUMBER ONEv HUNDREDsTENtHREEtWENTYuOlWORD SEPARATORdLUSbICKeUP TRUCKcEcGd FACEeN
OSEcLE OF POOdLcNATAdCHED FINGERSfING HANDdE DECORATIONeAPPLEdWHEEL STARcSCESdTOLcTCHFORKj WITH T
EE TOPbLACARDeE OF INTEREST SIGNjWORSHIPdNCK CONSTANTp OVER TWO PIdYGROUND SLIDEeING CARD ACE O
F CLUBSuDIAMONDSuHEARTSuSPADESnBACKoLACK JOKERnEIGHT OF CLUBSwDIAMONDSwHEARTSwSPADESnFIVE OF CLUB
SvDIAMONDSvHEARTSvSPADESoOOLpUR OF CLUBSvDIAMONDSvHEARTSvSPADESnJACK OF CLUBSvDIAMONDSvHEARTSvSPA
DESnKING OF CLUBSvDIAMONDSvHEARTSvSPADESoNIGHT OF CLUBSxDIAMONDSxHEARTSxSPADESnNINE OF CLUBSvDIAM
ONDSvHEARTSvSPADESnQUEEN OF CLUBSwDIAMONDSwHEARTSwSPADESnRED JOKERnSEVEN OF CLUBSwDIAMONDSwHEARTS
wSPADESoIX OF CLUBSuDIAMONDSuHEARTSuSPADESnTEN OF CLUBSuDIAMONDSuHEARTSuSPADESoHREE OF CLUBSwDIAM
ONDSwHEARTSwSPADESoRUMP-1u0u1u2u3u4u5u6u7u8u9t2u0u1t3t4t5t6t7t8t9oWO OF CLUBSuDIAMONDSuHEARTSuSPA
DESnWHITE JOKERcUNGERdS SIGN ABOVE EQUALS SIGNkIN LEFT HALF CIRCLEnRIGHT HALF CIRCLEnTRIANGLEkWIT
H BLACK TRIANGLEpCIRCUMFLEX ACCENT ABOVEpDOT BELOWpSMALL CIRCLE ABOVEqUBSCRIPT TWOpTILDE ABOVEvBE
LOWdTOf FORM FIVEmOURlTHREEmWObOCKET CALCULATORcLICE CARkS REVOLVING LIGHThOFFICERcODLEcP DIRECTI
ONAL FORMATTINGqISOLATEdCORNcRTABLE STEREOcSEIDONdITION INDICATORdTAL HORNhMARKl FACEeBOXcT OF FO
ODdABLE WATER SYMBOLeTOdTED PLANTcUCHdLTRY LEGdRING LIQUIDdTING CAT FACEiFACEcWER ON SYMBOLi-OF
F SYMBOLgSLEEP SYMBOLhYMBOLbRAYER BEADScECEDESi ABOVE ALMOST EQUAL TOpEQUALS SIGNpNOT ALMOST EQUA
L TOtEQUAL TOpSINGLE-LINE EQUALS SIGNbbNOT EQUAL TOjBUT NOT EQUIVALENT TOjOR EQUAL TOpIVALENT TOj
UNDER RELATIONdGNANT MANjPERSONjWOMANdSCRIPTION TAKEeENTATION FORM FOR VERTICAL COLONbhMMAbfEM DA
SHbgN DASHbgXCLAMATION MARKbfHORIZONTAL ELLIPSISbfIDEOGRAPHIC COMMAbrFULL STOPbfLEFT ANGLE BRACKE
TbkBLACK LENTICULAR BRACKETbkCORNER BRACKETblURLY BRACKETbkDOUBLE ANGLE BRACKETbkPARENTHESISbkSQU
ARE BRACKETbkTORTOISE SHELL BRACKETbkWHITE CORNER BRACKETbqLENTICULAR BRACKETbgOW LINEbfQUESTIO
N MARKbfRIGHT ANGLE BRACKETblBLACK LENTICULAR BRACKETblCORNER BRACKETbmURLY BRACKETblDOUBLE ANGL
E BRACKETblPARENTHESISblSQUARE BRACKETblTORTOISE SHELL BRACKETblWHITE CORNER BRACKETbrLENTICULA
R BRACKETcfKCETbfSEMICOLONbfTWO DOT LEADERbfWAVY LOW LINEdTZELdVIOUS PAGEcIMEdNCEgSSeT SCREEN SYM
BOLfERh ICONcOBING CANEdHIBITED SIGNdJECTIVEdPERTY LINEeORTIONkAL TOdSERPINAbSALTER PAHLAVI FOU
R DOTS WITH CROSSbfDOTqLETTER ALEPHxBETHxDALETHxGIMELxHEzTHxKAPHxLAMEDHxMEM-QOPHxNUNxPExSADHEzMEK
HyHINxTAWxWAW-AYIN-RESHxYODHxZAYINqNUMBER FOURxONEba HUNDREDxTENyHREEyWENTYzOqSECTION MARKqTURNE
D SECTION MARKbUBLIC ADDRESS LOUDSPEAKERcNCTUATION SPACEgS ELEVATUS MARKcRPLE HEARTdSEcSHPINcT LI
TTER IN ITS PLACE SYMBOL"),
  ('Q', "
aQUADRANT LOWER LEFTpRIGHTjUPPER LEFTt AND LOWER LEFT AND LOWER RIGHTbeRIGHTyUPPER RIGHT AND LOWE
R LEFTbuRIGHTpRIGHTu AND LOWER LEFTbj AND LOWER RIGHTfUPLE INTEGRAL OPERATORkPRIMEdRTER NOTEdTERN
ION INTEGRAL OPERATORcESTION EXCLAMATION MARKiED EQUAL TOcINCUNX"),
  ('R', "
aRABBITg FACEcCCOONdING CARhMOTORCYCLEcDICAL SYMBOL BOTTOMeOf BUTTONfACTIVE SIGNcILWAY CARiTRACKd
NeBOWdSED BACK OF HANDhCOMMAhDOTkTED INTERPOLATION MARKERhFISThHANDl WITH FINGERS SPLAYEDrPART BE
TWEEN MIDDLE AND RING FINGERShINTERPOLATION MARKERhMC SIGNiD SIGNiR SIGNhSQUAREcMcTdIOcZORbECEIPT
dREATIONAL VEHICLEdYCLED PAPER SYMBOLgING SYMBOL FOR GENERIC MATERIALSvTYPE-1 PLASTICSba2 PLASTIC
Sba3 PLASTICSba4 PLASTICSba5 PLASTICSba6 PLASTICSba7 PLASTICScD APPLEeGIFT ENVELOPEcFERENCE MARKc
GIONAL INDICATOR SYMBOL LETTER AbhBbhCbhDbhEbhFbhGbhHbhIbhJbhKbhLbhMbhNbhObhPbhQbhRbhSbhTbhUbhVbh
WbhXbhYbhZcJANG CONSONANT SIGN HwNxGwRhLETTER AoBAoCAoDAoGAoHAoJAoKAoLAoMApBAoNApDApGAqGApYAqJAoP
AoRAoSAoTAoWAoYAhSECTION MARKhVIRAMAiOWEL SIGN AItUsEtAtUsIsOsUcLIEVED FACEcMINDER RIBBONcPLACEME
NT CHARACTERcSPONSEdTRICTED LEFT ENTRY-1w2fOOMcTURN LEFThRIGHThSYMBOLcVERSE CHECKER BOARDiLIGHT F
OUR POINTED PINWHEEL STARiSOLIDUS OPERATORqPRECEDING SUBSETqWITH HORIZONTAL STROKEiTILDE OPERATO
R ABOVE LEFTWARDS ARROWbdRIGHTWARDS ARROWhD ANGLEo WITH UNDERBARjCOMMAjDOUBLE PRIMEv QUOTATION MA
RKqSTROKE NOT SIGNjEMPTY SETjFORKED PARAGRAPHOSjHAND WITH MIDDLE FINGER EXTENDEDjNOT SIGNjPILCRO
W SIGNkRIMEjQUESTION MARKjRAISED HAND WITH FINGERS SPLAYEDkIGHT ANGLEkOTATED FLORAL HEART BULLETj
SANS-SERIF CAPITAL LkEMICOLONjTHUMBS DOWN SIGNqUP SIGNkILDEo EQUALSkRIPLE PRIMEjVICTORY HANDdOLVI
NG HEARTSbHINOCEROSbIAL SIGNcBBONg ARROW DOWN LEFTsRIGHTnLEFT DOWNsUPnRIGHT DOWNtUPnUP LEFTqRIGHT
cCE BALLfCRACKERcFLEcGHT AND LOWER ONE EIGHTH BLOCKkUPPER ONE EIGHTH BLOCKiGER BUBBLEjLEl BRACKET
t WITH DOTmDOTTED SUBSTITUTION MARKERmSUBSTITUTION MARKERmVARIANT WITH SQUAREmWITH ARCrDOWNWARD
S ZIGZAG ARROWhRC GREATER-THAN BRACKETiROW WITH CIRCLED PLUSrSMALL CIRCLEgBLACK LENTICULAR BRACKE
TmTORTOISE SHELL BRACKETgCEILINGhORNER BRACKEThURLY BRACKET LOWER HOOKuMIDDLE PIECEuUPPER HOOKgDO
TTED SUBSTITUTION BRACKETiUBLE ANGLE BRACKEToRROW WITH ROUNDED HEADnPARENTHESISnQUOTATION MARKnWI
GGLY FENCEgFISH TAILiVE EIGHTHS BLOCKhLOORgHALF BLACK CIRCLErSTARnOCKlFOLDERlMEDIUM SHADElRUNNIN
G MANiND TELEPHONE RECEIVERgLOW PARAPHRASE BRACKETgNORMAL FACTOR SEMIDIRECT PRODUCTgONE EIGHTH BL
OCKkQUARTER BLOCKhPEN SQUARED DOThUTER JOINgPARENTHESIS EXTENSIONsLOWER HOOKsUPPER HOOKgRAISED OM
ISSION BRACKETgS-SHAPED BAG DELIMITERhEMIDIRECT PRODUCTiVEN EIGHTHS BLOCKhIDEWAYS U BRACKETiNGL
E QUOTATION MARKhPEAKERn WITH ONE SOUND WAVEtTHREE SOUND WAVESjECH BUBBLEhQUARE BRACKET EXTENSION
vLOWER CORNERvUPPER CORNERvWITH DOUBLE STROKEbaQUILLbaSTROKEbaTICK IN BOTTOM CORNERbiTOP CORNERba
UNDERBARhUBSTITUTION BRACKETgTACKhHIRD WHITE RIGHT POINTING INDEXiOUGHT BUBBLEiREE EIGHTHS BLOCKm
QUARTERS BLOCKhORTOISE SHELL BRACKEThRANSPOSITION BRACKETiIANGLEo ABOVE LEFT TRIANGLEmULAR ONE QU
ARTER BLOCKgVERTICAL BAR WITH QUILLqOX LINEgWHITE CORNER BRACKETnURLY BRACKETmLENTICULAR BRACKETm
PARENTHESISmSQUARE BRACKETmTORTOISE SHELL BRACKEThIGGLY FENCEf-FACING ARMENIAN ETERNITY SIGNnFIST
nSVASTI SIGNy WITH DOTSgHANDED INTERLACED PENTAGRAMgPOINTING ANGLE BRACKETpCURVED ANGLE BRACKETpM
AGNIFYING GLASSgSHADED WHITE RIGHTWARDS ARROWhIDE ARC CLOCKWISE ARROWgTO-LEFT EMBEDDINGoISOLATEoM
ARKoOVERRIDEfHAND INTERIOR PRODUCTfWARDS ARROWq ABOVE ALMOST EQUAL TOxREVERSE ALMOST EQUAL TObfTI
LDE OPERATORxSHORT LEFTWARDS ARROWxTILDE OPERATORsND UPPER AND LOWER ONE EIGHTH BLOCKrFROM BARz T
O BLACK DIAMONDrOVER LEFTWARDS ARROWrTHROUGH GREATER-THANzSUPERSETzXsO BARvLACK DIAMONDrWITH CORN
ER DOWNWARDSwDOTTED STEMyUBLE VERTICAL STROKEwEQUILATERAL ARROWHEADwHOOKwLARGE TRIANGLE ARROWHEAD
xOOPwMEDIUM TRIANGLE ARROWHEADwNOTCHED TAILwPLUS BELOWwSMALL EQUILATERAL ARROWHEADbcTRIANGLE ARRO
WHEADxTROKEwTAILba WITH DOUBLE VERTICAL STROKEbgVERTICAL STROKExIP DOWNWARDSbaUPWARDSwVERTICAL ST
ROKEq-TAILlBACK-TILTED SHADOWED WHITE ARROWmLACK ARROWrCIRCLED WHITE ARROWmOTTOM SHADED WHITE ARR
OWlCOMPRESSED ARROWlDASHED ARROWmOUBLE ARROWx FROM BARyWITH STROKEbdVERTICAL STROKEx-TAILsDASH AR
ROWlFINGER-POST ARROWmRONT-TILTED SHADOWED WHITE ARROWlHANDnRPOON OVER LEFTWARDS HARPOONtWITH BAR
B DOWN ABOVE LEFTWARDS HARPOON WITH BARB DOWNbiBELOW LONG DASHbiFROM BARbiTO BARbhWARDSbdUP ABOV
E LEFTWARDS HARPOON WITH BARB UPbnONG DASHbmRIGHTWARDS HARPOON WITH BARB DOWNbgFROM BARbgTO BARbf
WARDSmEAVY ARROWrCOMPRESSED ARROWlLEFT-SHADED WHITE ARROWlOPEN-HEADED ARROWlPAIRED ARROWSlQUADRUP
LE ARROWlRIGHT-SHADED WHITE ARROWmOCKETlSANS-SERIF ARROWmQUARED ARROWoIGGLE ARROWlTOP SHADED WHIT
E ARROWmRIANGLE ARROWHEADt-HEADED ARROWbg OVER LEFTWARDS TRIANGLE-HEADED ARROWbhTO BARbhWITH BOL
D SHAFTbmDOUBLE HORIZONTAL STROKEbtVERTICAL STROKEbmHEAVY SHAFTbmLONG TIP DOWNWARDSbvUPWARDSbmMED
IUM SHAFTbmNARROW SHAFTbmVERY HEAVY SHAFTbbDASHED ARROWbbPAIRED ARROWSoPLE ARROWsDASH ARROWmWO HE
ADED ARROWo-HEADED ARROW FROM BARbcWITH DOUBLE VERTICAL STROKEbhTAILbl WITH DOUBLE VERTICAL STROK
EbrVERTICAL STROKEbiRIANGLE ARROWHEADSbhVERTICAL STROKEwTRIPLE DASH ARROWlWAVE ARROWmHITE ARROW
w FROM WALLxWITHIN TRIANGLE ARROWHEADcNGe ABOVEfBUOYfEQUAL TOfIN EQUAL TOfOPERATORfPOINTeED PLANE
TeING BELLcSING DIAGONAL CROSSING FALLING DIAGONALzSOUTH EAST ARROWbLEcIcMcObOASTED SWEET POTATOc
BOT FACEcCKeETcLL OF PAPEReED-UP NEWSPAPERfR COASTERhSKATEeING ON THE FLOOR LAUGHINGcMAN AS SIGNg
CENTURIAL SIGNgDENARIUS SIGNhIMIDIA SEXTULA SIGNhUPONDIUS SIGNgNUMERAL EIGHTpLEVENoFIFTYt EARLY F
ORMuTHOUSANDqVEs HUNDREDtTHOUSANDpOURoNINEoONEr HUNDREDz THOUSANDsTHOUSANDba C DoREVERSED ONE HUN
DREDoSEVENpIXr LATE FORMoTENr THOUSANDpHREEpWELVEqOgQUINARIUS SIGNgSEMUNCIA SIGNiSTERTIUS SIGNiXT
ANS SIGNkULA SIGNhILIQUA SIGNgUNCIA SIGNcOSTERcSEeTTEcTATED CAPITAL QiFLORAL HEART BULLETiHEAVY B
LACK HEART BULLETiLIGHT FOUR POINTED BLACK CUSPiWHITE FOUR POINTED CUSPcUND PUSHPINgTARGETfED SYM
BOL FOR CAItFUtLUtSHOUvUANGXItXIcWBOATbUBLE SIGNcGBY FOOTBALLcLE-DELAYEDcMI DIGIT EIGHTlFIVEmOURl
NINElONElSEVENmIXlTHREEmWOfFRACTION ONE HALFsQUARTERsTHIRDoTWO THIRDSfNUMBER EIGHT HUNDREDrYmFIFT
YoVE HUNDREDnORTYoUR HUNDREDmNINE HUNDREDqTYmONE HUNDREDmSEVEN HUNDREDrTYnIX HUNDREDpTYmTENnHIRTY
oREE HUNDREDnWENTYoO HUNDREDcNIC ARLAUG SYMBOLgBELGTHOR SYMBOLgCROSS PUNCTUATIONgLETTER AC AoESCo
LGIZ EOLHXoNSUZ AnBERKANAN BEORC BJARKAN BnCoALCoEALCpNoWEORTHnDoAGAZ DAEG DoOTTED-LuNuPnEoARoHWA
Z EH EoNGoTHnFEHU FEOH FE FoRANKS CASKET ACbcESCbbEHbbISbbOSnGoARoEBO GYFU GpRnHAEGL HpGLAZ HnICE
LANDIC-YRoNGqWAZoORoSAZ IS ISS IoWAZ EOHnJERAN JnKoAUN KrAnLAUKAZ LAGU LOGR LoONG-BRANCH-AR AEzHA
GALL HzMADR MzOSS OzYRnMANNAZ MAN MnNAUDIZ NYD NAUD NnOoEoNoOoPEN-PoS OoTHALAN ETHEL OnPERTHO PEO
RTH PnQnRAIDO RAD REID RnSHpORT-TWIG-AR AyBJARKAN ByHAGALL HyMADR MyNAUD NyOSS OySOL SyTYR TyYRoI
GEL LONG-BRANCH-SOL SoOWILO SoTANnTHURISAZ THURS THORNoIWAZ TIR TYR TnURUZ UR UnVnWoUNJO WYNN WnX
nYoRnZgMULTIPLE PUNCTUATIONgSINGLE PUNCTUATIONgTVIMADUR SYMBOLdNEReING SHIRT WITH SASHcPEE SIGNcS
SIAN ASTROLOGICAL SYMBOL BINOVILEbcNOVILEbcQUINTILEbcSENTAGONbcTREDECILEbcVIGINTILE"),
  ('S', "
aS IN TRIANGLEbAFETY PINhVESTcGITTARIUScILBOATcKE BOTTLE AND CUPcLT SHAKEReIREdUTING FACEcMARITA
N ABBREVIATION MARKkLETTER ALAFrBAAsITrDALATrFIrGAMANrINsTsYrKAAFrLABATrMIMrNUNrQUFrRISHrSHANsING
AATrTAAFsITsSAADIYrYUTrZENkMARK DAGESHpEPENTHETIC YUTpINr-ALAFpNEQUDAApOCCLUSIONlODIFIER LETTER E
PENTHETIC YUTbaIbaSHORT AkPUNCTUATION AFSAAQxNGEDyNAAUxRKAANUxTMAAUwBAUwMELODIC QITSAwNEQUDAAwQIT
SAwSHIYYAALAAxOF MASHFAATwTURUwZAEFxIQAAkVOWEL SIGN AwAvEvIvLONG AbbAbaEbaIbaUvOwVERLONG AbfAvSHO
RT AwUKUNvUcNDWICHdS-SERIF HEAVY DOUBLE COMMA QUOTATION MARK ORNAMENTyTURNED COMMA QUOTATION MAR
K ORNAMENTrLOW DOUBLE COMMA QUOTATION MARK ORNAMENTlINTERROBANG ORNAMENTcRIcTELLITEj ANTENNAdURNc
URASHTRA CONSONANT SIGN HAARUlDANDAmIGIT EIGHTrFIVEsOURrNINErONErSEVENsIXrTHREEsWOrZEROmOUBLE DAN
DAlLETTER AtAtItUsBAtHAsCAtHAsDAtDAuHAtHAsEtEsGAtHAsHAsItIsJAtHAsKAtHAsLAtLAsMAsNAtGAtNAtYAsOtOsP
AtHAsRAsSAtHAtSAsTAtHAtTAuHAsUtUsVAtOCALIC LbbLbaRbbRsYAlSIGN ANUSVARAqCANDRABINDUqVIRAMAsSARGAlV
OWEL SIGN AAxIxUwExEwIxIwOxOwUxUwVOCALIC LbfLbeRbfReOPODcXOPHONEbCALESdRFcHOOLg SATCHELcOOTERdRPI
ONgUScREENeWDRIVERdIPT CAPITAL BpEpFpHpIpLpMpPpRhLIGATURE ET ORNAMENThSMALL EnGnLnOdOLLdUPLEbEALd
TcCOND PLACE MEDALdTORcDNAcE-NO-EVIL MONKEYdDLINGcGMENThED DIGIT EIGHTqFIVErOURqNINEqONEqSEVENrIX
qTHREErWOqZEROcLFIEcMIDIRECT PRODUCT WITH BOTTOM CLOSEDeSEXTILEcPARATED SYMBOLcRIOUS FACE WITH SY
MBOLS COVERING MOUTHdVICE MARKcSAME DOTdQUIQUADRATEcT MINUScWING NEEDLEcXTILEbHADOWED WHITE CIRCL
EpLATIN CROSSpSTARdLLOW PAN OF FOODdMROCKdRADA ABBREVIATION SIGNiCONTINUATION SIGNiDANDAjIGIT EIG
HToFIVEpOURoNINEoONEoSEVENpIXoTHREEpWOoZEROjOUBLE DANDAiEKAMjXTRA SHORT VOWEL MARKiHEADSTROKEiLET
TER AqAqIqUpBAqHApCAqHApDAqDArHAqHApEpGAqHApHApIqIpJAqHApKAqHApLAqLApMApNAqGAqNAqYApOpPAqHApRApSA
qHAqSApTAqHAqTArHApUqUpVAqOCALIC LyLxRyRpYAiOMiSANDHI MARKjECTION MARK-1v2kPARATORjIGN ANUSVARAoV
AGRAHAnCANDRABINDUnINVERTED CANDRABINDUnJIHVAMULIYAnNUKTAnSIDDHAMnUPADHMANIYAnVIRAMApSARGAjUTRA M
ARKiVOWEL MODIFIER MARKoSIGN AAuIuUtEtIuItOtPRISHTHAMATRA EtUuUtVOCALIC LbcLbbRbcReKdVED ICEeIA
N LETTER ADOqGEqHqIRqRErRAYqSHqWEpBIBpCHURCHpDEADpEARrTqGGqRRpFEEpGAGpHA-HAqUNGpIANqCEqFpJUDGEpKI
CKpLOLLpMEASUREqIMEpNUNpOAKqILqNqOZEqRqUTpPEEPpROARpSOqUREpTHEYrIGHqOTpUPpVOWpWOErOLpYEArWpZOOcEE
PcIELDdNTO SHRINEdPcOCKED FACE WITH EXPLODING HEADdOTING STARdPPING BAGSjTROLLEYdRT BACKSLANTED S
OUTH ARROWhENT ARROW POINTING DOWNWARDS THEN NORTH EASTgDOWN TACKp WITH OVERBARgLEFT TACKgRIGHTWA
RDS ARROW ABOVE LEFTWARDS ARROWgSLANTED NORTH ARROWgUP TACKn ABOVE SHORT DOWN TACKoWITH UNDERBARf
CAKEfHAND FORMAT CONTINUING OVERLAPrDOWN STEPrLETTER OVERLAPrUP STEPfSdULDERED OPEN BOXdWERcRIMPd
UGcUFFLE PRODUCTbIDDHAM DANDAjOUBLE DANDAiEND OF TEXT MARKiLETTER AqAqIqLTERNATE UqUpBAqHApCAqHAp
DAqDArHAqHApEpGAqHApHApIqIpJAqHApKAqHApLApMApNAqGAqNAqYApOpPAqHApRApSAqHAqSApTAqHArREE-CIRCLE ALT
ERNATE IqTArHAqWO-CIRCLE ALTERNATE IblIpUqUpVAqOCALIC LyLxRyRpYAiREPETITION MARK-1y2y3iSECTION MA
RK DOUBLE RINGbg WITH RAYSvWITH CIRCLES AND FOUR ENCLOSURESbmRAYSbmTWO ENCLOSURESbaDOUBLE CRESCEN
TSbaQUADRUPLE CRESCENTSbaRAYS AND DOTTED CRESCENTSbqDOUBLE CRESCENTSbqTRIPLE CRESCENTSbaSEPTUPL
E CRESCENTSbaTRIDENT AND DOTTED CRESCENTSbmU-SHAPED ORNAMENTSbdPLE CRESCENTSkPARATOR BARsDOTjIG
N ANUSVARAnCANDRABINDUnNUKTAnSIDDHAMnVIRAMApSARGAiVOWEL SIGN AAuIuLTERNATE UbeUuUtEtIuItOtUuUtVOC
ALIC RbcRdEWAYS BLACK DOWN POINTING INDEXpLEFT POINTING INDEXpRIGHT POINTING INDEXpUP POINTING IN
DEXjWHITE DOWN POINTING INDEXpLEFT POINTING INDEXpRIGHT POINTING INDEXpUP POINTING INDEXcGN OF TH
E HORNSeWRITING AIR BLOW SMALL ROTATIONSuING OUTqSUCK SMALL ROTATIONSuING INmBREATH EXHALEtINHALE
oUSH BETWEENsMULTIPLEsSINGLEmCHEEKS NEUTRALtPUFFEDtSUCKEDnOLONoMMAmDREAMY EYEBROWS DOWN NEUTRALbc
NEUTRAL DOWNbkUPbcUP NEUTRALnYNAMIC ARROWHEAD LARGEbeSMALLuEVERY OTHER TIMEuFASTuGRADUALuRELAXEDu
SIMULTANEOUSbg ALTERNATINGvLOWuTENSEmEARSnXCITEMENTnYE BLINK MULTIPLEwSINGLEqWINKpBROWS STRAIGH
T DOWNbeNEUTRALbeUPpGAZE-FLOORPLANE CURVEDbfSTRAIGHTbn ALTERNATINGboDOUBLEuWALLPLANE CIRCLINGbfUR
VEDbeSTRAIGHTbm ALTERNATINGbnDOUBLEpLASHES DOWNwFLUTTERINGwUPpS CLOSEDrHALF CLOSEDwOPENrOPENrSQUE
EZEDrWIDE OPENvNING MOVEMENTmFACE DIRECTION POSITION NOSE FORWARD TILTINGbpUP OR DOWNbz TILTINGnI
LL MODIFIER-2ba3ba4ba5ba6oNGERnLICK LARGE MULTIPLEySINGLEsSEQUENTIALtMALL MULTIPLEySINGLEoOORPLAN
E SHOULDER HIP MOVEnOREHEAD CONTACTvNEUTRALvWRINKLEDnULL STOPmGRASP BETWEENsMULTIPLEsSINGLEmHAIRo
ND-ANGLEw INDEXbc MIDDLE LITTLEbkRINGbdRING LITTLEbo OUTbdTHUMBbi INbjOUTxLITTLE INDEXbj THUMB IN
DEX THUMBcb OUTbeUPxMIDDLE RING LITTLEbp INbqOUTxRING DOWN MIDDLE THUMB INDEX CROSSbcLITTLErCIRCL
Ex INDEXbd BENTbeHINGEbeMIDDLEbk CROSS LITTLEbqEDblLITTLEblRINGblTHUMBbeRING LITTLEyLITTLE INDEXb
fUPyMIDDLE RING LITTLEbq BENTbfUPyRING LITTLEsLAWv FOUR FINGERS CONJOINEDwINDEX THUMB CURVE THUM
B INSIDEwMIDDLE RING LITTLE CONJOINEDby SIDEwNO THUMBwTHUMB FORWARDbcSIDEsUPu FIVE FINGERS SPREAD
bo OPENvINDEXba RING LITTLEbbTHUMBbg OPENvMIDDLE RING LITTLEvNO THUMBvOPENz NO THUMBbaTHUMB FORWA
RDbgSIDEvTHUMB FORWARDbbSIDEtRLICUEz INDEX RING LITTLE ONbaMIDDLE RING LITTLE ONbaOPENrFISTv FOU
R FINGERS CONJOINED BENTwHEELwINDEXbb BENTbg OVER MIDDLEbcCUPPEDbcHINGEDbi LOWbjMIDDLE UPbs THUM
B SIDEbcMIDDLEbi BENTbn THUMB STRAIGHTbjCONJOINEDbs CUPPEDbz THUMB FORWARDbtHINGEDbz THUMB SIDEbt
INDEX BENTbtMIDDLE BENTbtTHUMB FORWARDbzSIDEcd BENTceCONJOINEDbkROSS LITTLEboEDbq THUMB SIDEbjHIN
GEDbp SPREAD THUMB SIDEbjLITTLEbjRAISED KNUCKLESbkINGbn BENTboCONJOINEDbjSTRAIGHT THUMB BENTbjTHU
MBbo ANGLEDbv OUTbpBENTbpCIRCLEDbqONJOINED HINGEDbqUPPEDbpHINGEDbqOOKEDbjUP SPREAD THUMB FORWARDb
cRAISED KNUCKLEbdING LITTLEbcTHUMB ANGLED IN MIDDLE UPbpOUT MIDDLE UPbiCIRCLEboD MIDDLE UPbjUPPE
D MIDDLE UPbkRLICUEblVE THUMB INSIDEbuUNDERbiFORWARD INDEX BENTbwSTRAIGHTbiHOOKbmED MIDDLE HINGED
bwUPbiSIDEbm BOTH BENTbnINDEX BENTbtHINGEbnTHUMB BENTbtCONJOINEDbtDIAGONALbcUP MIDDLE HINGEDbs TH
UMB CONJOINEDbzSIDEwLITTLE BENTbdDOWNbh OTHERS CIRCLEDbiRIPPLE CURVEDbpSTRAIGHTbdINDEXbi THUMBbdR
AISED KNUCKLEbdTHUMBbeOUCHES THUMBbdUPwMIDDLE BENT OVER INDEXbdDOWNbdLITTLEbdRAISED KNUCKLEbeIN
G LITTLEbdTHUMB ANGLED INDEX UPbqOUT INDEX CROSSEDcaUPbjCIRCLED INDEX HINGEDbxUPbkUPPED INDEX UPb
jHOOKED INDEX UPbjLITTLEbdUPbf THUMB SIDEwRING DOWNbbINDEXbbLITTLEbbMIDDLEbh CONJOINEDbiRAISED KN
UCKLESbbRAISED KNUCKLEbbTHUMBbbUPwTHUMBbb BETWEEN INDEX MIDDLEbw STRAIGHTbkMIDDLE RINGbkRING LITT
LEbcFORWARDbcHEELbcOVER FOUR RAISED KNUCKLESbhTWO FINGERSbcSIDE BENTbhCONJOINEDbhDIAGONALbcUNDE
R FOUR FINGERSbiINDEX BENTbiLITTLE UPbiTHREE FINGERSbjWO FINGERSsLATv BETWEEN PALM FACINGSwFIVE F
INGERS SPREADbp BENTbqFOUR BENTbqHINGEDbw NO THUMBbxTHUMB SIDEbqTHUMB FORWARDxOUR FINGERSbi BENTb
jCONJOINEDbs SPLITbjHINGEDwHEELba FIVE FINGERS SPREADbu BENTbvFOUR BENTbbTHUMB SIDEwSPLIT CENTREb
i THUMB SIDEbt BENTbcINDEX THUMB SIDEbcLITTLEwTHUMB BENTbcFORWARDbcSIDErHINGEw FIVE FINGERS SPREA
D OPENyOUR FINGERS CONJOINEDxINDEXbc HINGEDbdMIDDLE LITTLEbkRINGbo CONJOINEDbdRING LITTLEbdTHUMBb
i LARGEbjOPENbjSIDEbkMALLxLITTLEbd INDEXbj THUMBbeTHUMBxMIDDLEbd RING LITTLExNO THUMBxOPENbb NO T
HUMBbcTHUMB FORWARDbiSIDExRINGbb DOWN INDEX THUMB HOOK MIDDLExSMALLxTHUMB BETWEEN MIDDLE RINGbdSI
DEbh TOUCHING INDEXsOOKv CURLICUEwINDEX RING LITTLE INboOUTboUNDERwMIDDLE RING LITTLE CONJOINEDb
y INbzOUTbdTHUMBwRING THUMBrOVALv FIVE FINGERS SPREADwINDEXwLITTLE UPwNO THUMBwRING LITTLEwTHUM
B FORWARDbcSIDEnEADq MOVEMENT CIRCLEz-FLOORPLANE CURVEblSTRAIGHTbaWALLPLANE CURVEbkSTRAIGHTbkTILT
rRIMmLIMB COMBINATIONrLENGTH-1y2y3y4y5y6y7oP LOWER OVER UPPERqUPPER OVER LOWERpS PRESSED TOGETHER
nOCATION DEPTHvHEAD NECKxIGHTvLIMBS DIGITSvTORSOvWIDTHu-FLOORPLANE SPACEvWALLPLANE SPACEmMOUTH CL
OSED CONTACTzFORWARDzNEUTRALtORNERSsFROWNx OPENyWRINKLEDsKISSw FORWARDxWRINKLEDsOPEN CIRCLExFORWA
RDxOVALbb WRINKLEDbcYAWNxRECTANGLEbg WRINKLEDbhYAWNxWRINKLEDsSMILEx OPENyWRINKLEDsTENSEx FORWARDy
SUCKEDsWRINKLES DOUBLEbbSINGLEoVEMENT-DIAGONAL AWAY LARGEboSTbjMEDIUMbjSMALLbeBETWEEN AWAY LARGEb
wSTbrMEDIUMbrSMALLbmTOWARDS LARGEbzSTbuMEDIUMbuSMALLbeTOWARDS LARGEbrSTbmMEDIUMbmSMALLvFLOORPLAN
E ARM CIRCLE HITTING WALL LARGE DOUBLEckSINGLEceMEDIUM DOUBLEclSINGLEceSMALL DOUBLEckSINGLEbgBEND
bhOX LARGEbkMEDIUMbkSMALLbgCHECKbhORNER LARGEbnMEDIUMbnSMALLbhROSSbhURVE COMBINEDbmHITTING CEILIN
G LARGEccSMALLbuFLOOR LARGEcaSMALLbmLARGEbrSTbmMEDIUMbmSMALLbgDOUBLE ALTERNATINGby WRIST FLEXbnST
RAIGHTbnWRIST FLEXbgFINGER CIRCLES HITTING WALL DOUBLEciSINGLEboONTACTbgHUMP HITTING CEILING LARG
E DOUBLEchTRIPLEcbSMALL DOUBLEchTRIPLEbtFLOOR LARGE DOUBLEbzSMALL DOUBLEbzTRIPLE LARGE TRIPLEcgSM
ALL TRIPLEblSMALLbgJAWbgLOOP HITTING CEILING LARGE DOUBLEchSINGLEcbSMALL DOUBLEchSINGLEbtFLOOR LA
RGE DOUBLEcfSINGLEbzSMALL DOUBLEcfSINGLEblSMALLbgPEAKS LARGEbmMEDIUMbmSMALLbgSHAKING PARALLELbhIN
GLE STRAIGHT LARGEcbSTbwMEDIUMbwSMALLbnWRIST FLEXbgTRIPLE ALTERNATING MOVEMENTbzWRIST FLEXbnSTRAI
GHT MOVEMENTbnWRIST FLEXbgWAVE HITTING CEILING LARGEcbSMALLbtFLOOR LARGEbzSMALLblLARGEblSMALLbmNA
KEbhRIST CIRCLE HITTING WALL DOUBLEcgSINGLEbgZIGZAG LARGEbnMEDIUMbnSMALLvHINGE DOWN SEQUENTIALbbS
IDE TO SIDE SCISSORSbbUP DOWN ALTERNATING LARGEbvSMALLbjLARGEbjSMALLbeSEQUENTIALvWALLPLANE ARM CI
RCLE MEDIUM DOUBLEbxSINGLEbqSMALL DOUBLEbwSINGLEbfBEND LARGEbkMEDIUMbkSMALLbgOX LARGEbjMEDIUMbjSM
ALLbfCHECK LARGEblMEDIUMblSMALLbgORNER LARGEbmMEDIUMbmROTATIONbmSMALLbgROSSbgURVE HALF-CIRCLE LAR
GEccSTbxMEDIUMbxSMALLbmITTING CHESTbtFRONT WALLblQUARTER LARGEbySTbtMEDIUMbtSMALLblTHEN STRAIGHTb
nREE-QUARTER CIRCLE MEDIUMcgSMALLbkD CROSS MEDIUMbsSMALLbfDOUBLE ALTERNATINGbx WRIST FLEXbmSTRAIG
HTbmWRIST FLEXbfFINGER CIRCLES DOUBLEbuSINGLEbnONTACTbfHUMP HITTING CHESTbsFRONT WALLbkLARGEbkMED
IUMbkSMALLbfJAWbfLOOP HITTING CHESTbsFRONT WALLbkLARGEbkMEDIUMbkSMALLbp DOUBLEbfPEAKS LARGEblMEDI
UMblSMALLbfSHAKINGbgINGLE STRAIGHT LARGEcaSTbvMEDIUMbvSMALLbmWRIST FLEXbfTRIPLE ALTERNATINGbx WRI
ST FLEXbmSTRAIGHT MOVEMENTbmWRIST FLEXbfWAVE CURVE DOUBLE LARGEbxMEDIUMbxSMALLbqTRIPLE LARGEbxMED
IUMbxSMALLbkDIAGONAL PATH LARGEbyMEDIUMbySMALLbkHITTING CHESTbsFRONT WALLbgRIST CIRCLE FRONT DOUB
LEbySINGLEbfZIGZAG LARGEbmMEDIUMbmSMALLmNECKnOSE CONTACTrNEUTRALrWIGGLESsRINKLESmPARENTHESISmROTA
TION MODIFIER-10bf1bf2bf3bf4bf5bf6be2be3be4be5be6be7be8be9u-FLOORPLANE ALTERNATINGbr HITTING CEIL
INGcaFLOORbgDOUBLEbm HITTING CEILINGbvFLOORbgSINGLEbm HITTING CEILINGbvFLOORvWALLPLANE ALTERNATEb
nING HITTING CHESTbzFRONT WALLbfDOUBLEbl HITTING CHESTbuFRONT WALLbfSINGLEbl HITTING CHESTbuFRON
T WALLnUB BETWEENqMULTIPLEqSINGLEmSEMICOLONnHOULDER HIP POSITIONSzSPINEvTILTING FROM WAISTnQUEEZ
E FLICK ALTERNATINGuLARGE MULTIPLEbaSINGLEuSEQUENTIALvMALL MULTIPLEbaSINGLEnTRIKE BETWEENtMULTIPL
EtSINGLEnURFACE BETWEENuSYMBOLSmTEETHr BITE LIPSsMOVEMENTsON LIPSz MOVEMENTvTONGUEbb MOVEMENToNS
E CHEEKS HIGHzLOWzMIDDLEnONGUE CENTRE INSIDE MOUTHbaSTICKING OUTtINSIDE MOUTH RELAXEDtLICKING LIP
StMOVES AGAINST CHEEKtSTICKING OUT FARtTIP BETWEEN LIPSxTOUCHING INSIDE MOUTHoRSO-FLOORPLANE TWIS
TINGsWALLPLANE CURVED BENDbcSTRAIGHT STRETCHoUCH BETWEENsMULTIPLEsSINGLEnRAVEL-FLOORPLANE ROTATIO
N-FLOORPLANE ALTERNATINGbyDOUBLEbySINGLEbnWALLPLANE ALTERNATINGbxDOUBLEbxSINGLEbeSHAKINGtWALLPLAN
E ARM SPIRAL DOUBLEboSINGLEboTRIPLEbdROTATION-FLOORPLANE ALTERNATINGbxDOUBLEbxSINGLEbmWALLPLANE A
LTERNATINGbwDOUBLEbwSINGLEbdSHAKINGmUPPER BODY TILTING FROM HIP JOINTSmWALLPLANE SHOULDER HIP MOV
EcLHOUETTE OF JAPANcMILAR ABOVE GREATER-THAN ABOVE EQUALS SIGNoLESS-THAN ABOVE EQUALS SIGNiMINU
S SIMILARiOR GREATER-THANlLESS-THANcNE WAVEdGLE HIGH-REVERSED-9 QUOTATION MARKhLEFT-POINTING ANGL
E QUOTATION MARKiOW-9 QUOTATION MARKhRIGHT-POINTING ANGLE QUOTATION MARKdHALA ARCHAIC DIGIT EIGHT
wFIVExOURwNINEwONEwSEVENxIXwTHREExWOqNUMBER EIGHTYxFIFTYyORTYxNINETYxONE HUNDREDbbTHOUSANDxSEVENT
YyIXTYxTENyHIRTYyWENTYiLETTER AAYANNAqEEYANNArYANNAqIYANNAqLPAPRAANA BAYANNAbaCAYANNAbaDAYANNAbbD
AYANNAbaGAYANNAbaJAYANNAbaKAYANNAbaPAYANNAbaTAYANNAbbTAYANNAqMBA BAYANNAqUYANNAqYANNApDANTAJA LAY
ANNAxNAYANNAxSAYANNApEEYANNAqYANNApFAYANNApHAYANNApIIYANNAqLUUYANNAsYANNAqRUUYANNAsYANNAqYANNApKA
NTAJA NAASIKYAYApMAHAAPRAANA BAYANNAbbCAYANNAbbDAYANNAbcDAYANNAbbGAYANNAbbJAYANNAbbKAYANNAbbPAYAN
NAbbTAYANNAbcTAYANNArYANNAqUURDHAJA LAYANNAzNAYANNAzSAYANNApOOYANNAqYANNApRAYANNApSANYAKA DAYANNA
yDAYANNAxGAYANNAxJAYANNApTAALUJA NAASIKYAYAxSANYOOGA NAAKSIKYAYAzYANNApUUYANNAqYANNApVAYANNApYAYA
NNAjITH DIGIT EIGHTtFIVEuOURtNINEtONEtSEVENuIXtTHREEuWOtZEROiPUNCTUATION KUNDDALIYAiSIGN AL-LAKUN
AoNUSVARAYAnCANDRABINDUnVISARGAYAiVOWEL SIGN AELA-PILLAtDIGA AEDA-PILLAyGAETTA-PILLAbaYANUKITTAyI
S-PILLAyKOMBUVAyPAA-PILLAtGAETTA-PILLAvYANUKITTAtKETTI AEDA-PILLAzIS-PILLAzPAA-PILLAuOMBU DEKAyVA
ba HAA AELA-PILLAbfDIGA AELA-PILLAbfGAYANUKITTAcX PETALLED BLACK AND WHITE FLORETTEfOINTED BLAC
K STARmPINWHEEL STARmSTAR WITH MIDDLE DOTd-PER-EM SPACEdTEEN POINTED ASTERISKbKATEBOARDcI AND SK
I BOOTdERcULLf AND CROSSBONESdNKbLANTED EQUAL TO OR GREATER-THANbg WITH DOT INSIDEuLESS-THANbd WI
TH DOT INSIDEiNORTH ARROW WITH HOOKED HEADbbRIZONTAL TAILdVONIC ASTERISKcEDdEPING ACCOMMODATIONjF
ACEjSYMBOLfY FACEdUTH OR SPYcICE OF PIZZAdGHTLY FROWNING FACEjSMILING FACEcOPEeING LARGE ANDoORd
T MACHINEeHbMALL AIRPLANEhMPERSANDhSTERISKgBLUE DIAMONDgCOLONiMMAkERCIAL ATiNTAINS AS MEMBERpWIT
H OVERBARuVERTICAL BAR AT END OF HORIZONTAL STROKEgDOLLAR SIGNgELEMENT OFq WITH OVERBARwVERTICA
L BAR AT END OF HORIZONTAL STROKEhM DASHhQUALS SIGNhXCLAMATION MARKgFULL STOPgGREATER-THAN SIGNgH
YPHEN-MINUSgIDEOGRAPHIC COMMAgLEFT CURLY BRACKETlPARENTHESISlTORTOISE SHELL BRACKETiSS-THAN SIGNg
NUMBER SIGNgORANGE DIAMONDgPERCENT SIGNhLUS SIGNgQUESTION MARKgREVERSE SOLIDUShIGHT CURLY BRACKET
mPARENTHESISmTORTOISE SHELL BRACKEThOMAN NUMERAL EIGHTvLEVENuFIFTYwVEy HUNDREDvOURuNINEuONEx HUND
REDyTHOUSANDuSEVENvIXuTENvHREEvWELVEwOgSEMICOLONgTILDEhWO DOTS OVER ONE DOT PUNCTUATIONgVEE WIT
H UNDERBARfER THANm OR EQUAL TOdSH PRODUCTcILEeING CAT FACE WITH HEART-SHAPED EYESwOPEN MOUTHiFAC
E WITH HALOtEART-SHAPED EYEStORNSsOPEN MOUTHbc AND COLD SWEATbhSMILING EYESbhTIGHTLY-CLOSED EYESs
SMILING EYESbe AND HAND COVERING MOUTHbjTHREE HEARTStUNGLASSESsTEARdRKING FACEcOKING SYMBOLbNAILd
KEcEEZING FACEcOW CAPPED MOUNTAINeBOARDEReFLAKEeMANh WITHOUT SNOWbOCCER BALLdKScFT ICE CREAMfSHEL
L FLOPPY DISKeBALLeWARE-FUNCTION SYMBOLcGDIAN COMBINING CURVE ABOVEyBELOWsDOT ABOVEwBELOWsHOOK AB
OVExBELOWsLONG HOOK BELOWsRESH BELOWsSTROKE BELOWsTWO DOTS ABOVEbbBELOWiINDEPENDENT SHINiLETTER A
LEPHqYINpBETHpFETHpGIMELpHErTHpKAPHpLAMEDHqESHpMEMpNUNpPEpRESH-AYINpSADHErMEKHqHINpTAWpWAWpYODHpZ
AYINiNUMBER ONEs HUNDREDpTENqWENTYiPUNCTUATION CIRCLE WITH DOTuHALF CIRCLE WITH DOTuTWO CIRCLES W
ITH DOTSyVERTICAL BARSbl WITH DOTScLID QUILT SQUARE ORNAMENTbb IN BLACK SQUAREfUS WITH OVERBARc
M SIGNcON WITH RIGHTWARDS ARROW ABOVEcRA SOMPENG DIGIT EIGHTtFIVEuOURtNINEtONEtSEVENuIXtTHREEuWOt
ZEROnLETTER AHuBAHuCAHuDAHuEEHvHuGAHuHAHuIHuJAHuKAHuLAHuMAEwHuNAHvGAHvYAHuOHuPAHuRAHuSAHuTAHuUHuV
AHuYAHcUND RECORDING COPYRIGHTdTH EAST ARROWq AND SOUTH WEST ARROWrCROSSING NORTH EAST ARROWrTO C
ORNERrWITH HOOKlBLACK ARROWlDOUBLE ARROWlPOINTING BUDuLEAFuVINE LEAFlSANS-SERIF ARROWlTRIANGLE-HE
ADED ARROWbg TO BARlWHITE ARROWgWEST ARROWq AND NORTH WEST ARROWrWITH HOOKlBLACK ARROWlDOUBLE ARR
OWlPOINTING BUDuLEAFuVINE LEAFlSANS-SERIF ARROWlTRIANGLE-HEADED ARROWbg TO BARlWHITE ARROWcYOMB
O CLUSTER-INITIAL LETTER LAbfRAbfSAbgHAiFINAL CONSONANT SIGN -AbdBbdDbdGbdKbdLbdMbdNbeGbdRbdSbeHi
GEMINATION MARKiHEAD MARK WITH MOON AND SUNbj AND FLAMEboTRIPLE FLAMEiLETTER -ApApBAqHApCAqHApDAq
DArHAqHAqZApGAqHApHApJAqHApKAqHAqSSApLApMApNAqGAqNAqYApPAqHApRApSAqHAqSApTAqHAqSArHAqTArHApVApYAp
ZAqHAiMARK DOUBLE SHADnPLUTAnSHADnTSHEGiSIGN ANUSVARAnJIHVAMULIYAnUPADHMANIYAnVISARGAjUBJOINERiTE
RMINAL MARK-1w2iVOWEL LENGTH MARKoSIGN AIuUtEtItOuEtUuEtVOCALIC LbbRbPAGHETTIdRKLEhSgING HEARTcEA
K-NO-EVIL MONKEYfERh WITH CANCELLATION STROKEnONE SOUND WAVEnTHREE SOUND WAVESfING HEAD IN SILHOU
ETTEdECH BALLOONeDBOATdSMILO SIGNcHERICAL ANGLEp OPENING LEFTyUPcIDERg WEBdRAL CALENDAR PADhNOT
E PADhSHELLcLASHING SWEAT SYMBOLcONGEdOL OF THREADeNdRTS MEDALdUTING WHALEbQUARE A OVER MiARUiMiN
PEAiPAATOiRUHUAiUhBAARERUjRiEETAiIRUiORUTOiQiUSSYERUhC OVER KGiALjPiCiDiMj CUBEDkSQUAREDiOjRPORAT
IONiUPhDAjASUiBiESIiJiLiMj CUBEDkSQUAREDiORUhEEKAAiRA NAME HEISEIqMEIZIqREIWAqSYOUWAqTAISYOUjGiSU
KUUDOiVhFMiOOTjUR CORNERShGALjNMAjRONiBiHZiIGAjNIIjRUDAAiPAiURAMUnTONiYhHAjITUiEKUTAARUjRUTUiGiIR
AGANA HOKAiONjONkRUiPjAiUARADDOjIITOjRANiZhIMAGE OFp OR EQUAL TOtNOT EQUAL TOiNjINGUjTIiUhK OHMiA
jIRIjRATTOkORIIiBiCALiEESUiGiHZiIROlGURAMUlMEETORUlWATTOiKiLiMj CAPITALlUBEDkSQUAREDiOOPOjRUNAiPA
iTiUROONEkUZEIROiViWiYURIIhLEFT OPEN BOX OPERATORiMiNiOGjZENGEiXhM CUBEDjOHMkVER Sp SQUAREDjSQUAR
EDiAjHHAjIKUROkRUjNSYONjRUKUiBj SMALLiEETORUjGAlTONiGiHZiIKURONjLjRIlBAARUiLiMj CUBEDkSQUAREDiOLi
PAiSiU AkFkGkLkMkSkVkWiVj MEGAiWj MEGAhNAjNOiFiMiOTTOiSiViWhONSUiOMUiRIGINAL OFs OR EQUAL TOwNO
T EQUAL TOiVhPAj AMPSjASENTOkTUiCiEEZIjNIHIkSUjSOiFiHiIASUTORUjKOkURUiMiOINTOjNDOjSITION INDICATO
RiPMiRiSiViWhRADk OVER Sr SQUAREDiEMUjNTOGENiIGHT OPEN BOX OPERATORjRAjTTORUiOOTiUPIIjUBURUhSAIKU
RUjNTIIMUiENTIlOiIRINGUiRiVhTARGETiHZiONhUONhV OVER MhWATTOiBiITH BOTTOM HALF BLACKmCONTOURED OUT
LINEmDIAGONAL CROSSHATCH FILLmHORIZONTAL FILLmLEFT HALF BLACKnOWER LEFT DIAGONAL HALF BLACKsRIGH
T DIAGONAL HALF BLACKmORTHOGONAL CROSSHATCH FILLmRIGHT HALF BLACKmTOP HALF BLACKmUPPER LEFT DIAGO
NAL HALF BLACKxTO LOWER RIGHT FILLsRIGHT DIAGONAL HALF BLACKyTO LOWER LEFT FILLmVERTICAL FILLhYAA
DOkRUiUANgD ASTERISKiCJK UNIFIED IDEOGRAPH-4E00bh9bg2Dbg8CbgA4be518Dbf21Dbg4Dbg72bf3CCbgF3bf408bg
39bf5B6bf8F0bf91Abg29bfB57bfDE6bfF8Cbe624Bbg53bg95bf307bg55bf599bgB0bf620bf708bh9bfE80bfF14be7121
bf51Fbg33bf981bfA7AbfD42be89E3bfCA9bfD70be904Abf14DjLjOOLiDOT OPERATORiEIGHT KiFALLING DIAGONAL S
LASHjIVE POINT ONEjOUR DOT PUNCTUATIONnKjREEiHCjDRjI-RESjViIDiKATAKANA DErKOKOrSAjEYiLATIN CAPITA
L LETTER AbdBbdCbdDbdEbdFbdGbdHbdIbdJbdKbdLbdMbdNbdObdPbdQbdRbdSbdTbdUbdVbdWbdXbdYbdZoSMALL LETTE
R DjOGICAL ANDqORkSSLESSiMINUSjViNEWjGiOKjNE HUNDRED TWENTY PiPLUSjPViRISING DIAGONAL SLASHiSALTI
REjDjECOND SCREENkVEN POINT ONEjHVjIXTY PjMALL CIRCLEjOSjQUAREjSiTHREE DjIMESjWENTY-TWO POINT TWO
kO KiUHDjP WITH EXCLAMATION MARKiVODjSiWCeT BLACK RIGHTWARDS ARROWdIDbTADIUMdFF OF AESCULAPIUSjHE
RMESdMPED ENVELOPEdNDING PERSONdR AND CRESCENTfEQUALSfOF DAVIDgPERATORfWITH LEFT HALF BLACKkRIGH
T HALF BLACKdTIONeUE OF LIBERTYcEAM LOCOMOTIVEfING BOWLdNOGRAPHIC FULL STOPdTHOSCOPEcICK FIGURE
m LEANING LEFTvRIGHTnWITH ARMS RAISEDsDRESScOCK CHARTdPWATCHcRAIGHT RULERiNESSeWBERRYdESS OUTLINE
D WHITE STARdICTLY EQUIVALENT TOcUDIO MICROPHONEdFFED FLATBREADdPAbUBSCRIPT EIGHTlQUALS SIGNkFIVE
lOURkLEFT PARENTHESISkMINUSkNINEkONEkPLUS SIGNkRIGHT PARENTHESISkSEVENlIXkTHREElWOkZEROeET ABOV
E RIGHTWARDS ARROWnSUBSETpPERSEThOFj ABOVE ALMOST EQUAL TOqEQUALS SIGNqNOT EQUAL TOqTILDE OPERATO
RkOR EQUAL TOv WITH DOT ABOVEkWITH NOT EQUAL TOhWITH DOTmMULTIPLICATION SIGN BELOWmPLUS SIGN BELO
WcCCEEDSi ABOVE ALMOST EQUAL TOpEQUALS SIGNpNOT ALMOST EQUAL TOtEQUAL TOpSINGLE-LINE EQUALS SIGNb
bNOT EQUAL TOjBUT NOT EQUIVALENT TOjOR EQUAL TOpIVALENT TOjUNDER RELATIONcMMATION BOTTOMkTOPkWIT
H INTEGRALcNd BEHIND CLOUDeWITH FACEdDANESE AVAGRAHAkCONSONANT SIGN PAMINGKALbbNYAKRAbdIKUbbSANGA
N MAbiWAkDIGIT EIGHTqFIVErOURqNINEqONEqSEVENrIXqTHREErWOqZEROkLETTER AsErBAsHArCArDArEsUrFAsINA
L KxMrGArHArIrJArKAsHArLAsEUrMArNAsGAsYArOrPArQArRAsEUrSAsYArTArUrVArWArXArYArZAkPUNCTUATION BIND
U BA SATANGAbcCAKRAbcDA SATANGAbcKA SATANGAbcLEU SATANGAbcPANGLONGbdURNAMAbcSURYAkSIGN PAMAAEHrNG
LAYARtWISADsYECEKpVIRAMAkVOWEL SIGN PAMEPETxNAELAENGyEULEUNGyGHULUyOLONGyYUKUdFLOWERdRISEh OVER M
OUNTAINSdSET OVER BUILDINGScPERHEROfSCRIPT EIGHTnQUALS SIGNmFIVEnOURmLATIN SMALL LETTER IbfNnEF
T PARENTHESISmMINUSmNINEmPLUS SIGNmRIGHT PARENTHESISmSEVENnIXmZEROgET ABOVE LEFTWARDS ARROWpSUBSE
TrPERSETjBESIDE AND JOINED BY DASH WITH SUBSETqSUBSETjOFl ABOVE ALMOST EQUAL TOsEQUALS SIGNsNOT E
QUAL TOsTILDE OPERATORmOR EQUAL TOx WITH DOT ABOVEmWITH NOT EQUAL TOjPRECEDING SOLIDUSjWITH DOToM
ULTIPLICATION SIGN BELOWoPLUS SIGN BELOWfVILLAINcRFACE INTEGRALeERcSHIdPENSION RAILWAYbWANdSH AMP
ERSAND ORNAMENTcIMMERcUNG DASHbYLOTI NAGRI LETTER AuBHOvOuCHOvOuDDHOwOvHOvOuEuGHOvOuHOuIuJHOvOuKH
OvOuLOuMOuNOuOuPHOvOuROvROuSOuTHOvOvTHOwOuUnPOETRY MARK-1z2z3z4nSIGN ALTERNATE HASANTAtNUSVARAsDV
ISVARAsHASANTAnVOWEL SIGN AyEyIyOOyUcMBOL FOR ACKNOWLEDGElBACKSPACEmELLlCANCELnRRIAGE RETURNlDAT
A LINK ESCAPEmELETEr FORM TWOnVICE CONTROL FOURbaONEbaTHREEbbWOlEND OF MEDIUMsTEXTtRANSMISSIONb
e BLOCKnQUIRYmSCAPElFILE SEPARATORmORM FEEDlGROUP SEPARATORlHORIZONTAL TABULATIONlLINE FEEDlMARK
S CHAPTERlNEGATIVE ACKNOWLEDGEnWLINEmULLlRECORD SEPARATORlSAMARITAN SOURCEmHIFT INrOUTmPACEmTAR
T OF HEADINGuTEXTmUBSTITUTEv FORM TWOmYNCHRONOUS IDLElTYPE A ELECTRONICSlUNIT SEPARATORlVERTICA
L TABULATIONdMETRYcNAGOGUEcRIAC ABBREVIATION MARKhBARREKHhCOLON SKEWED LEFTuRIGHTjNTRACTIONhDOTTE
D ZLAMA ANGULARuHORIZONTALhEND OF PARAGRAPHiSASA ABOVEnBELOWhFEMININE DOThHARKLEAN ASTERISCUSqMET
OBELUSqOBELUSiBASA ABOVEnBELOWm-ESASA DOTTEDiORIZONTAL COLONhLETTER ALAPHoBETHoDALATHpOTLESS DALA
TH RISHoEoFINAL SEMKATHoGAMALt GARSHUNIoHEqTHoKAPHoLAMADHoMALAYALAM BHAyJAyLLAbaLAyNGAzNAbaNAzYAy
RAySSAyTTApIMoNUNoPEqRSIAN BHETHwDHALATHwGHAMALoQAPHoREVERSED PEpISHoSADHEpEMKATHpHINpOGDIAN FEwK
HAPHwZHAINpUPERSCRIPT ALAPHoTAWpETHs GARSHUNIoWAWoYUDHs HEoZAINhMUSIChOBLIQUE LINE ABOVEuBELOWhPT
HAHA ABOVEoBELOWoDOTTEDhQUSHSHAYAhRBASA ABOVEnBELOWiUKKAKHAiWAHAhSUBLINEAR COLONw SKEWED LEFTbeRI
GHTrFULL STOPjPRALINEAR COLONy SKEWED LEFTtFULL STOPhTHREE DOTS ABOVEsBELOWiWO VERTICAL DOTS ABOV
EzBELOWhZQAPHA ABOVEoBELOWoDOTTEDeNGE"),
  ('T', "
aT-REXcSHIRTbABLE TENNIS PADDLE AND BALLcCOcG AMPERSANDfPOSTROPHEfSTERISKeCIRCUMFLEX ACCENTfOLONg
MMAiERCIAL ATeDIGIT EIGHTkFIVElOURkNINEkONEkSEVENlIXkTHREElWOkZEROfOLLAR SIGNeEQUALS SIGNfXCLAMAT
ION MARKeFULL STOPeGRAVE ACCENTgEATER-THAN SIGNeHYPHEN-MINUSeLATIN CAPITAL LETTER AzBzCzDzEzFzGzH
zIzJzKzLzMzNzOzPzQzRzSzTzUzVzWzXzYzZkSMALL LETTER AxBxCxDxExFxGxHxIxJxKxLxMxNxOxPxQxRxSxTxUxVxWxX
xYxZfEFT CURLY BRACKETjPARENTHESISjSQUARE BRACKETgSS-THAN SIGNfOW LINEeNUMBER SIGNePERCENT SIGNfL
US SIGNeQUESTION MARKgOTATION MARKeREVERSE SOLIDUSfIGHT CURLY BRACKETkPARENTHESISkSQUARE BRACKETe
SEMICOLONfOLIDUSfPACEeTILDEeVERTICAL LINEdALOG LETTER AqRCHAIC RApBApDApGApHApIpKApLApMApNAqGApPA
pRApSApTApUpWApYAiSIGN PAMUDPODnVIRAMAiVOWEL SIGN ItUdBANWA LETTER AqBAqDAqGAqIqKAqLAqMAqNArGAqPA
qSAqTAqUqWAqYAjVOWEL SIGN IuUcI LE LETTER ApIpUEoEpEpHoFAoHAoIoKApHAoLAoMAoNApGAoOpOoPApHAoQAoSAo
TApHApONE-2t3t4t5t6pSAqHAoUpEoVAoXAoYAeTHAM COMBINING CRYPTOGRAMMIC DOTlNSONANT SIGN BAyFINAL NGA
yHIGH RATHA OR LOW PAyLA TANG LAIzOW PAyMAzEDIAL LAbfRAySAjHORA DIGIT EIGHTuFIVEvOURuNINEuONEuSEV
ENvIXuTHREEvWOuZEROjLETTER AqBAqDAqEEqGREAT SAqHIGH CAwHAvFAvHAvKAwHAwXAvPAwHAvRATHAvSAwHAwSAvTAw
HAvYAqIrIqLAsErLArOW CAvHAuFAuHAuKAvHAvXAuPAvHAuRATHAuSAuTAvHAuYArUEqMAqNArGArYAqOOqRAsNAsTArUEqU
rUqWAjSIGN CAANGoDOKMAIoHANGpOYoKAANsKUUpEOWpHUEN TONE-3z4z5t-LUE KARANoMAI KANGw LAIsSAMsYAMOKoR
A HAAMpEVERSED ROTATED RANAoSAKOTqTKAANvKUUqWANoTONE-1t2oWIANGtWAAKjTHAM DIGIT EIGHTuFIVEvOURuNIN
EuONEuSEVENvIXuTHREEvWOuZEROjVOWEL SIGN AvAvEvIuEuIvIuMAI SATuOvA ABOVExBELOWvOvYuTALL AAvHAM AIu
UvEvUwEeVIET LETTER HIGH BOvCHOwOvDOvFOvGOvHOvKHHOxOwOvLOvMOvNGOwOwYOvOvPHOwOvROvSOvTHOwOvVOvYOqL
OW BOuCHOvOuDOuFOuGOuHOuKHHOwOvOuLOuMOuNGOvOvYOuOuPHOvOuROuSOuTHOvOuVOuYOjMAI KANGoHITjSYMBOL H
O HOIqKOI KOIsNqNUENGqSAMjTONE MAI EKsNUENGsSONGsTHOjVOWEL AAqMqNqUEqYpEpIqApOpUqAqErAcKEOUT BOXd
RI ABBREVIATION SIGNgDIGIT EIGHTmFIVEnOURmNINEmONEmSEVENnIXmTHREEnWOmZEROgLETTER AoAoIoRCHAIC KHA
oUnBAoHAnCAoHAnDAoDApHAoHAnEnGAoHAnHAnIoInJAoHAnKAoHAnLAnMAnNAoGAoNAoYAnOnPAoHAnRAoRAnSAoHAnTAoHA
oTApHAnUoUnVAnYAgSIGN ANUSVARAlNUKTAlVIRAMAnSARGAgVOWEL SIGN AAsIsUrErIsIrOrUsUcLLY MARK FIVElONE
cMALEdIL AND ODD SIGNhS ABOVE SIGNhU LENGTH MARKgCREDIT SIGNhURRENT SIGNgDAY SIGNhEBIT SIGNhIGI
T EIGHTmFIVEnOURmNINEmONEmSEVENnIXmTHREEnWOmZEROhRY CULTIVATION SIGNgFRACTION DOWNSCALING FACTO
R KIIZHpONE EIGHTHyIETHtFIFTHuORTIETHtHALF-1y2tONE-HUNDRED-AND-SIXTIETHtQUARTERtSIXTEENTH-1bd2xY
-FOURTHtTENTHuHIRTY-SECONDvREE-HUNDRED-AND-TWENTIETHuWENTIETHpTHREE EIGHTIETHSvQUARTERSvSIXTEENTH
SzY-FOURTHSvTWENTIETHSgIN POSSESSION SIGNgLAND SIGNhETTER AoAoIoUnCAnEoEnHAnIoInJAnKAnLAoLApLAnMA
nNAoGAoNApNAoYAnOoOnPAnRAoRAnSAoHAoSAnTAoTAnUoUnVAnYAgMONTH SIGNgNUMBER ONE HUNDREDrTHOUSANDnSIGN
nTENgOMgPUNCTUATION END OF TEXTgRUPEE SIGNgSALT PAN SIGNhIGN AAZHAAKKUmNUSVARAlCEVITUlKAACUmURUNI
nZHIlMUKKURUNInTHALIYAnUVUZHAKKUlNELlPAARAMnNAMnTHAKKUmONlUZHAKKUlVAKAIYARAAnRAAKANmELImIRAMAnSAR
GAhPENT SIGNhTARTING FROM SIGNgTOTAL SIGNhRADITIONAL CREDIT SIGNsNUMBER SIGNgVOWEL SIGN AAsIsUrEs
ErIsIrOsOrUsUgWET CULTIVATION SIGNgYEAR SIGNcNABATA TREEdGERINEeSA DIGIT EIGHTnFIVEoOURnNINEnONEn
SEVENoIXnTHREEoWOnZEROhLETTER ACpQpWCqQqXqZpXpZoBAoCApHAoDApHAoECpQpXpZoFApINAL NGoGApHAoHApTAqTA
oICpQpXpZoKApHAoLApONG UEXoMApCpQpXpZoNApGApHApYAoOCpQpXpZoPApHAoRAoSApHAqORT AWXuUEZoTApHApSAoUC
pECqQqXqZpICqQqUCrQrXrZqXqZpQpXpZoVCpQpXpZoWAoXAoYAoZAeUT COMPONENT-001t2t3t4t5t6t7t8t9s10t1t2t3t
4t5t6t7t8t9s20t1t2t3t4t5t6t7t8t9s30t1t2t3t4t5t6t7t8t9s40t1t2t3t4t5t6t7t8t9s50t1t2t3t4t5t6t7t8t9s6
0t1t2t3t4t5t6t7t8t9s70t1t2t3t4t5t6t7t8t9s80t1t2t3t4t5t6t7t8t9s90t1t2t3t4t5t6t7t8t9r100t1t2t3t4t5t
6t7t8t9s10t1t2t3t4t5t6t7t8t9s20t1t2t3t4t5t6t7t8t9s30t1t2t3t4t5t6t7t8t9s40t1t2t3t4t5t6t7t8t9s50t1t
2t3t4t5t6t7t8t9s60t1t2t3t4t5t6t7t8t9s70t1t2t3t4t5t6t7t8t9s80t1t2t3t4t5t6t7t8t9s90t1t2t3t4t5t6t7t8
t9r200t1t2t3t4t5t6t7t8t9s10t1t2t3t4t5t6t7t8t9s20t1t2t3t4t5t6t7t8t9s30t1t2t3t4t5t6t7t8t9s40t1t2t3t
4t5t6t7t8t9s50t1t2t3t4t5t6t7t8t9s60t1t2t3t4t5t6t7t8t9s70t1t2t3t4t5t6t7t8t9s80t1t2t3t4t5t6t7t8t9s9
0t1t2t3t4t5t6t7t8t9r300t1t2t3t4t5t6t7t8t9s10t1t2t3t4t5t6t7t8t9s20t1t2t3t4t5t6t7t8t9s30t1t2t3t4t5t
6t7t8t9s40t1t2t3t4t5t6t7t8t9s50t1t2t3t4t5t6t7t8t9s60t1t2t3t4t5t6t7t8t9s70t1t2t3t4t5t6t7t8t9s80t1t
2t3t4t5t6t7t8t9s90t1t2t3t4t5t6t7t8t9r400t1t2t3t4t5t6t7t8t9s10t1t2t3t4t5t6t7t8t9s20t1t2t3t4t5t6t7t
8t9s30t1t2t3t4t5t6t7t8t9s40t1t2t3t4t5t6t7t8t9s50t1t2t3t4t5t6t7t8t9s60t1t2t3t4t5t6t7t8t9s70t1t2t3t
4t5t6t7t8t9s80t1t2t3t4t5t6t7t8t9s90t1t2t3t4t5t6t7t8t9r500t1t2t3t4t5t6t7t8t9s10t1t2t3t4t5t6t7t8t9s
20t1t2t3t4t5t6t7t8t9s30t1t2t3t4t5t6t7t8t9s40t1t2t3t4t5t6t7t8t9s50t1t2t3t4t5t6t7t8t9s60t1t2t3t4t5t
6t7t8t9s70t1t2t3t4t5t6t7t8t9s80t1t2t3t4t5t6t7t8t9s90t1t2t3t4t5t6t7t8t9r600t1t2t3t4t5t6t7t8t9s10t1
t2t3t4t5t6t7t8t9s20t1t2t3t4t5t6t7t8t9s30t1t2t3t4t5t6t7t8t9s40t1t2t3t4t5t6t7t8t9s50t1t2t3t4t5t6t7t
8t9s60t1t2t3t4t5t6t7t8t9s70t1t2t3t4t5t6t7t8t9s80t1t2t3t4t5t6t7t8t9s90t1t2t3t4t5t6t7t8t9r700t1t2t3
t4t5t6t7t8t9s10t1t2t3t4t5t6t7t8t9s20t1t2t3t4t5t6t7t8t9s30t1t2t3t4t5t6t7t8t9s40t1t2t3t4t5t6t7t8t9s
50t1t2t3t4t5t6t7t8t9s60t1t2t3t4t5t6t7t8hITERATION MARKcPE CARTRIDGEfDRIVEcURUScXIbEACUP WITHOUT H
ANDLEdPOTdR-OFF CALENDAReDROP-BARBED RIGHTWARDS ARROWjSPOKED ASTERISKcDDY BEARcLEPHONE LOCATION S
IGNkON TOP OF MODEMkRECEIVERs WITH PAGEnORDERkSIGNeSCOPEeVISIONdUGU AI LENGTH MARKhDIGIT EIGHTnFI
VEoOURnNINEnONEnSEVENoIXnTHREEoWOnZEROhFRACTION DIGIT ONE FOR EVEN POWERS OF FOURbeODD POWERS O
F FOURwTHREE FOR EVEN POWERS OF FOURbgODD POWERS OF FOURxWO FOR EVEN POWERS OF FOURbeODD POWERS O
F FOURwZERO FOR ODD POWERS OF FOURhLENGTH MARKjTTER ApApIpUoBApHAoCApHAoDApDAqHApHApZAoEpEoGApHAo
HAoIpIoJApHAoKApHAoLApLAqLAoMAoNAqKAARA POLLUpGApNApYAoOpOoPApHAoRApRAqRAoSApHApSAoTApHApSApTAqHA
oUpUoVApOCALIC LxLwRxRoYAhSIGN ANUSVARAnVAGRAHAmCANDRABINDUnOMBINING ANUSVARA ABOVEwCANDRABINDU A
BOVEmNUKTAmSIDDHAMmTUUMUmVIRAMAoSARGAhVOWEL SIGN AAtItUsEtEsItIsOtOsUtUsVOCALIC LbbLbaRbbRcNGE SI
GNdNIS RACQUET AND BALLdTcST TUBEcTRAGRAM FOR ACCUMULATIONpDVANCEpGGRAVATIONpSCENToBARRIERpOLD RE
SOLUTIONpRANCHING OUToCENTREpHANGEpLOSED MOUTHtNESSsUREpOMPLETIONtIANCEqNSTANCYrTACTsENTIONsRARIE
TYoDARKENINGpECISIVENESSqFECTIVENESS OR DISTORTIONqPARTUREpIFFICULTIESqMINISHMENTrMINGqVERGENCEpO
UBTpUTIESoEASEpMBELLISHMENTpNCOUNTERSqDEAVOURqLARGEMENTpTERNITYpXHAUSTIONoFAILUREpLIGHTpOLLOWINGq
STERINGpULL CIRCLEsNESSoGATHERINGx INpOING TO MEETpREATNESSpUARDEDNESSoHARDNESSpOLDING BACKoINCRE
ASEqNERoJOYoKEEPING SMALLpINSHIPoLABOURINGqW OR MODELpEGIONoMASSINGpEASUREpIREDoON THE VERGEpPPOS
ITIONoPACKINGqTTERNpENETRATIONpURITYoREACHqLEASEqSIDENCEsSTANCErPONSEpITUALoSEVERANCEpINKINGpTOPP
AGErVEqRENGTHoUNITYoVASTNESS OR WASTINGoWAITINGqTCHoYOUTHFULNESSbHAANA AABAAFILIiBAFILIhEBEFILIiE
BEEFILIiYBEYFILIhIBIFILIhLETTER AINUpLIFUoBAAoCHAVIYANIoDAADHUqVIYANIpHAALUoFAAFUoGAAFUpHAINUpNAV
IYANIoHAApHAAoJAVIYANIoKAAFUpHAAoLAAMUpHAVIYANIoMEEMUoNAApOONUoPAVIYANIoQAAFUoRAAoSAADHUpEENUpHAV
IYANIqEENUoTAVIYANIpHAAsLUpOpTAAoVAAVUoWAAVUoYAAoZAAqVIYANIpOhOABOAFILIiBOFILIiOBOOFILIhSUKUNhUBU
FILIdI CHARACTER ANGKHANKHUpBO BAIMAIpCHO CHANxGvINGvOEpDO CHADAsDEKpFO FAuNrNGMANpHO HIPsNOKHUKp
KHO KHAIvONvUATvWAItRAKHANGsMUTqO KAIpLAKKHANGYAOqO CHULAsLINGqUpMAI CHATTAWAtEKtHAN-AKATtTHOuRIs
TAIKHUsYAMOKqO MApNGO NGUqIKHAHITqO NENtUpO ANGpPAIYANNOIqHINTHUrO PHANvUNGtSAMPHAOqO PLApRO RUAq
UpSARA AvAvEvI MAIMALAIbbUANvMuEuIvIuOuUvEwEvUqO RUSIsSALAtOtUApTHANTHAKHATrO NANGMONTHOtPHUTHAOt
THAHANwNvONGvUNGqO PATAKsTAOpWO WAENpYAMAKKANqO YAKtINGgURRENCY SYMBOL BAHTfDIGIT EIGHTlFIVEmOURl
NINElONElSEVENmIXlTHREEmWOlZEROcERE DOES NOT EXISTgEXISTSfFOREeMODYNAMICgMETERcIN GREEK CROSSfSAL
TIREgPACEeKING FACEdRD PLACE MEDALcONG SANDALdUGHT BALLOONcREE BUTTON MOUSEgCONSECUTIVE EQUALS SI
GNSgDIMENSIONAL ANGLEhOT PUNCTUATIONgLEFTWARDS ARROWShINES CONVERGING LEFTxRIGHTgNETWORKED COMPUT
ERSgPOINTED BLACK STARgRAYS ABOVElBELOWlLEFTlRIGHThIGHTWARDS ARROWSgSPEECH BUBBLESf-D BOTTOM-LIGH
TED RIGHTWARDS ARROWHEADiLEFT-LIGHTED DOWNWARDS EQUILATERAL ARROWHEADiRIGHT-LIGHTED UPWARDS EQUIL
ATERAL ARROWHEADiTOP-LIGHTED LEFTWARDS EQUILATERAL ARROWHEADuRIGHTWARDS ARROWHEADbfEQUILATERAL AR
ROWHEADgEM DASHgPER-EM SPACEcUMBS DOWN SIGNhUP SIGNdNDER CLOUD AND RAINhSTORMbIBETAN ASTROLOGICA
L SIGN -KHYUD PAbaSDONG TSHUGSbbGRA GCAN -CHAR RTAGSiCANTILLATION SIGN CANG TE-UbaHEAVY BEATbaLIG
HT BEATbaSBUB -CHALiDIGIT EIGHToFIVEpOURoHALF EIGHTtFIVEuOURtNINEtONEtSEVENuIXtTHREEuWOtZEROoNINE
oONEoSEVENpIXoTHREEpWOoZEROiKU RU KHAr BZHI MIG CANiLETTER -ApApBAqHApCAqHApDAqDArHAqHAqZArHApFIX
ED-FORM RApGAqHApHApJApKAqHAqKAqSSApLApMApNAqGAqNAqYApPAqHApRAqRApSAqHAqSApTAqHAqSArHAqTArHApWApY
ApZAqHAjOGOTYPE SIGN CHAD RTAGSwLHAG RTAGSiMARK ANG KHANG GYASzONnBKA- SHOG GI MGO RGYANxYIG MGOo
SDUS RTAGSpKA- SHOG GI MGO RGYANqUR YIG MGOnCARET -DZUD RTAGS BZHI MIG CANbfME LONG CANtYIG MGO P
HUR SHAD MAoHE MGOoLOSING BRDA RNYING YIG MGO SGAB MAvYIG MGO SGAB MAnDELIMITER TSHEG BSTARnGTE
R TSHEGsYIG MGO -UM GTER TSHEG MAbeRNAM BCAD MAbaTRUNCATED AoUG RTAGS GYASzONnHALANTAnINITIAL BRD
A RNYING YIG MGO MDUN MAvYIG MGO MDUN MApTERSYLLABIC TSHEGnLEADING MCHAN RTAGSnMNYAM YIG GI MGO R
GYANnNGAS BZUNG NYI ZLAySGOR RTAGSoYIS SHADsTSHEGx SHADnPALUTAnRGYA GRAM SHADoIN CHEN SPUNGS SHAD
nSBRUL SHADoHADnTRAILING MCHAN RTAGSoSA -PHRUpHEG SHADnYIG MGO TSHEG SHAD MAiSIGN GRU CAN RGYINGS
rMED RGYINGSnINVERTED MCHU CANnLCE TSA CANpI RTAGSnMAR TSHESoCHU CANnNYI ZLA NAA DAnRDEL DKAR GCI
GyNYISySUMxRDEL NAGsNAG GCIGxNYISxSUMwRDEL DKARoJES SU NGA ROoNAM BCADnSNA LDANnYANG RTAGSpR TSHE
SjUBJOINED LETTER -AzAzBAbaHAzCAbaHAzDAbaDAbbHAbaHAbaZAbbHAzFIXED-FORM RAbkWAbkYAzGAbaHAzHAzJAzKA
baHAbaSSAzLAzMAzNAbaGAbaNAbaYAzPAbaHAzRAzSAbaHAbaSAzTAbaHAbaSAbbHAbaTAbbHAzWAzYAzZAbaHAsSIGN INVE
RTED MCHU CANxLCE TSA CANxMCHU CANjYLLABLE OMkMBOL DRIL BUpNOR BUv BZHI -KHYILwGSUM -KHYILwNYI
S -KHYILpPADMA GDANqHUR PApRDO RJEw RGYA GRAMiVOWEL SIGN AAtEuEtIuItOuOtREVERSED IbdItUuUtVOCALI
C LbcLbbRbcRcCKETcE OVER INFINITYcFINAGH CONSONANT JOINERjLETTER AHAGGAR YAZHrYER YAGHqBERBER ACA
DEMY YAHbhJqTAWELLEMET YAZrUAREG YAGHbaNzHzKbaHzNGzQzZHqYAsAsBtHsCHsDtDuHtHsFsGtHuHsHtHsJsKtHuHsL
sMsNsPsQsRtRsStHtSsTtHtTsVsWsYsZtHtZrEsYrIrOrUjMODIFIER LETTER LABIALIZATION MARKjSEPARATOR MARKc
GERf FACEdHT TRIFOLIATE SNOWFLAKEcLDE OPERATORo ABOVE LEFTWARDS ARROWvRIGHTWARDS ARROWpWITH DOT A
BOVEuRISING DOTSgWITH DOT ABOVEpBELOWlRING ABOVEcMER CLOCKeS WITH LEFT HALF BLACKlRIGHT HALF BLAC
KcNYe TWO DOTS OVER ONE DOT PUNCTUATIONcRED FACEdHUTA ABBREVIATION SIGNjNJIiDIGIT EIGHToFIVEpOURo
NINEoONEoSEVENpIXoTHREEpWOoZEROiGVANGiLETTER AqAqIqUpBAqHApCAqHApDAqDArHAqHApEpGAqHApHApIqIpJAqHA
pKAqHApLApMApNAqGAqNAqYApOpPAqHApRApSAqHAqSApTAqHAqTArHApUqUpVAqOCALIC LyLxRyRpYAiOMiSIGN ANUSVAR
AoVAGRAHAnCANDRABINDUnNUKTAnVIRAMApSARGAiVOWEL SIGN AAuIuUtEtIuItOtSHORT EzOtUuUtVOCALIC LbcLbbRb
cRdONIAN SIGN CAPITAL EToETbOILETcKYO TOWERcMATOcNGUEcOLBOXdTHfBRUSHcP ARC ANTICLOCKWISE ARROWb
b WITH PLUSiCLOCKWISE ARROW WITH MINUSeCURLY BRACKETeHALF BLACK CIRCLEjINTEGRALjLEFT PARENTHESISj
RIGHT PARENTHESISjSECTION SIGNgTeLEFT CORNERkROPjHALF BRACKETePARENTHESISeRIGHT CORNERlROPkHALF B
RACKETeSQUARE BRACKETeTORTOISE SHELL BRACKETeWITH UPWARDS ARROW ABOVEcRTOISE SHELL BRACKETED CJ
K UNIFIED IDEOGRAPH-4E09bx8Cbv52DDbwB89bv6253bw557bw72Cbv70B9bw6D7zLATIN CAPITAL LETTER ScTAL RUN
OUTdO LETTER AnEmBAnREATHY AEuEvOuIvUmCHAmDAmEnOmGAmHAmInUmJAmKAmLAmMAmNAnGAmOmPAmRAmSAmTAmUmWAmY
AfSIGN RISING TONEbRACKBALLeTORdDE MARK SIGNdINdMe CARdNSPLUTOfVERSAL INTERSECTIONcIANGLE WITH DO
T ABOVEoROUNDED CORNERSoSERIFS AT BOTTOMoUNDERBARi-HEADED RIGHTWARDS ARROWgULAR BULLETlFLAG ON PO
STlRULERdCOLONdDENT EMBLEMdGRAM FOR EARTHmFIREmHEAVENmLAKEmMOUNTAINmTHUNDERmWATERnINDdPLE COLON O
PERATORhDAGGERhHORIZONTAL BAR WITH DOUBLE VERTICAL STROKEbbTRIPLE VERTICAL STROKEhINTEGRALhNESTE
D GREATER-THANoLESS-THANhPLUSiRIMEhSOLIDUS BINARY RELATIONhTILDEhVERTICAL BAR BINARY RELATIONuDEL
IMITERuRIGHT TURNSTILEuWITH HORIZONTAL STROKEcOLLfEYBUSdPHYeICAL DRINKjFISHcUEe LIGHT MOON ARTAdM
PETbUGRIK SIGNcLIPcMBLER GLASScRKEYeISH LIRA SIGNdNED AMPERSANDiNGLEhBLACK PENTAGONnSHOGI PIECEhC
APITAL FiOMMAhDAGGERiIGIT THREEoWOhGREEK SMALL LETTER IOTAhNORTH EAST POINTING LEAFnWEST POINTIN
G LEAFjT SIGNhOK HAND SIGNhSANS-SERIF CAPITAL GbaLbaYiEMICOLONiMALL FiOUTH EAST POINTING LEAFnWES
T POINTING LEAFhWHITE SHOGI PIECEdTLEbWELVE POINTED BLACK STARcISTED RIGHTWARDS ARROWScO ASTERISK
S ALIGNED VERTICALLYeBUTTON MOUSEeCONSECUTIVE EQUALS SIGNSeDOT LEADERiPUNCTUATIONhS OVER ONE DO
T PUNCTUATIONeHEARTSeINTERSECTING LOGICAL ANDzOReJOINED SQUARESeLOGICAL AND OPERATORmOR OPERATORe
MEN HOLDING HANDSeSPEECH BUBBLESeWOMEN HOLDING HANDSd-EM DASH"),
  ('U', "
aUGARITIC LETTER AINrLPAqBETAqDELTArHALqGAMLArHAINqHOsTAqIqKAFrHAqLAMDAqMEMqNUNqPUqQOPAqRASHAqSAD
EsMKArHINrSUqTETrHANNArOqUqWOqYODqZETArUjWORD DIVIDERbMBRELLAi ON GROUNDjWITH RAIN DROPSbNAMUSE
D FACEcCERTAINTY SIGNcDERTIEdO SYMBOLcICORN FACEdONf ABOVE BAR ABOVE INTERSECTIONmINTERSECTIONgBE
SIDE AND JOINED WITH UNIONgWITH LOGICAL ORlMINUS SIGNlOVERBARdTED SYMBOLdVERSAL RECYCLING SYMBOLc
MARRIED PARTNERSHIP SYMBOLbP ARROW THROUGH CIRCLEiHEADm BETWEEN TWO HORIZONTAL BARSnIN A RECTANGL
E BOXdBARB LEFT DOWN BARB LEFT HARPOONxRIGHT HARPOONiRIGHT DOWN BARB LEFT HARPOONyRIGHT HARPOONdD
OWN ARROWn WITH BASEiBLACK ARROWiDOUBLE ARROWiSANS-SERIF ARROWiTRIANGLE-HEADED ARROWiWHITE ARROWd
FISH TAILdRIGHT DIAGONAL ELLIPSISdTACKh WITH CIRCLE ABOVEc-POINTING AIRPLANEmMILITARY AIRPLANEmRE
D TRIANGLEmSMALL AIRPLANEsRED TRIANGLEmTRIANGLE WITH LEFT HALF BLACKbaRIGHT HALF BLACKcPER AND LE
FT AND LOWER TRIANGULAR THREE QUARTERS BLOCKlOWER ONE EIGHTH BLOCKqTRIANGULAR HALF BLOCKkRIGHT AN
D LOWER TRIANGULAR THREE QUARTERS BLOCKgBLADE SCISSORSgFIVE EIGHTHS BLOCKgHALF BLOCKq AND LOWER H
ALF INVERSE MEDIUM SHADElCIRCLElINVERSE MEDIUM SHADE AND LOWER HALF BLOCKtWHITE CIRCLElMEDIUM SHA
DEgLEFT BLOCK DIAGONAL LOWER CENTRE TO LOWER MIDDLE RIGHTbqUPPER MIDDLE RIGHTbwRIGHTbgLEFT TO LOW
ER MIDDLE RIGHTboUPPER CENTREbuMIDDLE RIGHTbgMIDDLE LEFT TO UPPER CENTREcbMIDDLE RIGHTcbRIGHTbaUP
PER MIDDLE LEFT TO UPPER CENTREcbRIGHTlCORNER WITH DOTlOR LOWER RIGHT CURLY BRACKET SECTIONlQUADR
ANT CIRCULAR ARClTO LOWER RIGHT FILLmRIANGLErULAR MEDIUM SHADEgONE EIGHTH BLOCKkQUARTER BLOCKgRIG
HT BLOCK DIAGONAL LOWER MIDDLE LEFT TO LOWER CENTREccRIGHTbbUPPER CENTRE TO LOWER MIDDLE RIGHTbxR
IGHTbrUPPER MIDDLE RIGHTbhLEFT TO LOWER CENTREbvMIDDLE RIGHTbpUPPER MIDDLE RIGHTbhMIDDLE LEFT T
O LOWER CENTREccMIDDLE RIGHTccRIGHTmDROP-SHADOWED WHITE SQUAREmOR LOWER LEFT CURLY BRACKET SECTIO
NmPENCILmQUADRANT CIRCULAR ARCmSHADOWED WHITE CIRCLEbbSQUAREmTO LOWER LEFT FILLnRIANGLEsULAR MEDI
UM SHADEgSEVEN EIGHTHS BLOCKgTHREE EIGHTHS BLOCKmQUARTERS BLOCKhRIANGULAR ONE QUARTER BLOCKcSIDE
-DOWN FACEcWARDS ANCORAjRROWn AND RIGHT ONE EIGHTH BLOCKoFROM BARoLEFTWARDS OF DOWNWARDS ARROWoT
O BARoWITH DOUBLE STROKEtEQUILATERAL ARROWHEADtHORIZONTAL STROKEtLARGE TRIANGLE ARROWHEADtMEDIU
M TRIANGLE ARROWHEADtNOTCHED TAILtSMALL EQUILATERAL ARROWHEADzTRIANGLE ARROWHEADtTIP LEFTWARDSxRI
GHTWARDSiBLACK ARROWoCIRCLED WHITE ARROWiCOMPRESSED ARROWiDASHED ARROWjOUBLE ARROWiFINGER-POST AR
ROWiHARPOON WITH BARB LEFT BESIDE DOWNWARDS HARPOON WITH BARB RIGHTbmUPWARDS HARPOON WITH BARB RI
GHTbfFROM BARbfTO BARbeWARDSbaRIGHT FROM BARbgTO BARbfWARDSjEAVY ARROWoCOMPRESSED ARROWiPAIRED AR
ROWSiQUADRUPLE ARROWiROCKETiSANS-SERIF ARROWjQUARED ARROWiTRIANGLE ARROWHEADq-HEADED ARROWbd LEFT
WARDS OF DOWNWARDS TRIANGLE-HEADED ARROWbeTO BARbeWITH BOLD SHAFTbjDOUBLE HORIZONTAL STROKEbjHEAV
Y SHAFTbjLONG TIP LEFTWARDSbsRIGHTWARDSbjMEDIUM SHAFTbjNARROW SHAFTbjVERY HEAVY SHAFTyDASHED ARRO
WyPAIRED ARROWSlPLE ARROWjWO HEADED ARROWl-HEADED ARROW FROM SMALL CIRCLEzWITH TRIANGLE ARROWHEAD
SiWHITE ARROWt FROM BARbc WITH HORIZONTAL BARuON PEDESTALbf WITH HORIZONTAL BARblVERTICAL BARuWIT
HIN TRIANGLE ARROWHEADoDOUBLE ARROWba ON PEDESTALbRANUS"),
  ('V', "
aVAI COMMAeDIGIT EIGHTkFIVElOURkNINEkONEkSEVENlIXkTHREElWOkZEROeFULL STOPeQUESTION MARKeSYLLABL
E AoNnBAoEpEoHApEqEpIpOqOpUoIoOpOoUnCAoEpEoIoOpOoUnDAoEpEoHApEqEpHAqErEqIqOrOqUpIpOqOpUoIoOpOoUnE
oEpNoNnFAoEpEoIoOpOoUnGAoBApEqEqNpIpOqNqOpUoEpEpNoIoOpOoUnHApNoEpEpNoIpNoOpNpOoUpNnIoNnJAoEpEoIoO
pOoUnKApNoEpEoIoOpOoPAqNpEqEqNpIpOqOpUoUnLAoEpEpNGTHENERoIoOpOoUnMAoBApEqEpIpOqOpUoEpEoGBAqErEqIq
OrOqUoIoOpOoUnNAoDApEqEpIpOqLE DOtFAtKAtMAtSOOqOpUoEpEoGpANpENpGAqErErNqIqOrOqUpONoIoJApEqEpIpOqO
pUoOpOoUoYApEqEpIpOqOpUnOoNoOpNnPAoEpEoIoOpOoUnRAoEpEoIoOpOoUnSAoEpEoHApEqEpIpOqOpUoIoOpOoUnTAoEp
EoHApEqEpIpOqOpUoIoOpOoUnUoNnVAoEpEoIoOpOoUnWApNoEpEqNpNoIpNoOpNpOqNoUpNnYAoEpEoIoOpOoUnZAoEpEoHA
pEqEpIpOqOpUoIoOpOoUgMBOL BANGlDANGmO-OnONGlFAAmEENGlJONGlKEENGmUNGlNIIlTAAmINGmONGcMPIREcRIATIO
N SELECTOR-1u0v0v1v2v3v4v5v6v7v8v9u1v0v1v2v3v4v5v6v7v8v9u2v0v1v2v3v4v5v6v7v8v9u3v0v1v2v3v4v5v6v7v
8v9u4v0v1v2v3v4v5v6v7v8v9u5v0v1v2v3v4v5v6v7v8v9u6v0v1v2v3v4v5v6v7v8v9u7v0v1v2v3v4v5v6v7v8v9u8v0v1
v2v3v4v5v6v7v8v9u9v0v1v2v3v4v5v6v7v8v9t2u0v0v1v2v3v4v5v6v7v8v9u1v0v1v2v3v4v5v6v7v8v9u2v0v1v2v3v4v
5v6v7v8v9u3v0v1v2v3v4v5v6v7v8v9u4v0v1v2v3v4v5v6v7v8v9u5v0v1v2v3v4v5v6u6u7u8u9t3u0u1u2u3u4u5u6u7u8
u9t4u0u1u2u3u4u5u6u7u8u9t5u0u1u2u3u4u5u6u7u8u9t6u0u1u2u3u4u5u6u7u8u9t7u0u1u2u3u4u5u6u7u8u9t8u0u1u
2u3u4u5u6u7u8u9t9u0u1u2u3u4u5u6u7u8u9bECTOR OR CROSS PRODUCTcDIC SIGN ANUSVARA ANTARGOMUKHAuBAHIR
GOMUKHAuUBHAYATO MUKHAuVAMAGOMUKHAbf WITH TAILmRDHAVISARGAmTIKRAMAlDOUBLE ANUSVARA ANTARGOMUKHAlH
EXIFORM LONG ANUSVARAlJIHVAMULIYAlLONG ANUSVARAlNIHSHVASAlREVERSED VISARGA ANUDATTAbcUDATTAmOTATE
D ARDHAVISARGAmTHANG LONG ANUSVARAlTIRYAKlUPADHMANIYAlVISARGA ANUDATTAbb WITH TAILtSVARITAtUDATTA
z WITH TAILlYAJURVEDIC MIDLINE SVARITAgTONE ATHARVAVEDIC INDEPENDENT SVARITAlCANDRA ABOVEsBELOWlD
OT BELOWnUBLE RING ABOVEsSVARITAlKARSHANAnTHAKA ANUDATTAlPRENKHAlRIGVEDIC KASHMIRI INDEPENDENT SV
ARITAnNG ABOVElSHARAlTHREE DOTS BELOWmRIPLE SVARITAmWO DOTS BELOWlYAJURVEDIC AGGRAVATED INDEPENDE
NT SVARITAwINDEPENDENT SVARITAwKATHAKA INDEPENDENT SVARITAbx SCHROEDERcRSICLEdTICAL BAR BESIDE RI
GHT TRIANGLEnDOUBLE LEFT TURNSTILEnTRIPLE RIGHT TURNSTILEnWITH HORIZONTAL STROKEjELLIPSISjFOUR DO
TSjIDEOGRAPHIC ITERATION MARKjKANA REPEAT MARKz LOWER HALFbaUPPER HALFvWITH VOICED SOUND MARKbr U
PPER HALFjLINE EXTENSIONoWITH CIRCLE ABOVEbaBELOWtMIDDLE DOTjMALE WITH STROKE SIGNjONE EIGHTH BLO
CK-2ba3ba4ba5ba6ba7jSIX DOTSjTAB KEYkILDEkRAFFIC LIGHTjZIGZAG LINEdY BOLD GREEK CROSSfHEAVY EIGH
T POINTED BLACK STARrSPOKED ASTERISKlFIVE SPOKED ASTERISKlGREEK CROSSlREVERSE SOLIDUSlSALTIREmI
X SPOKED ASTERISKmOLIDUSlWHITE CIRCLErSQUAREfMUCH GREATER-THANkLESS-THANcSTAbIBRATION MODEcCTOR
Y HANDcDEO CAMERAgGAMEfCASSETTEcETNAMESE ALTERNATE READING MARK CAbiNHAYdWDATA SQUAREcOLINcRGOcTH
KUQI CAPITAL LETTER AyBBEzEyCEzHEyDEzHEyEzIyFEyGAyHAzHAyIzJEyJEyKAyLAzLAyMEyNEzJEyOyPEyQAyREySEzH
EyTEzHEyUyVEyXEyYyZEjSMALL LETTER AwBBExEwCExHEwDExHEwExIwFEwGAwHAxHAwIxJEwJEwKAwLAxLAwMEwNExJEwO
wPEwQAwREwSExHEwTExHEwUwVEwXEwYwZEbOIDED GREEK CROSScLCANOdLEYBALLdUME INTEGRALbS1d0e0e1e2e3e4e5e
6e7e8e9d1e0e1e2e3e4e5e6e7e8e9d2e0e1e2e3e4e5e6e7e8e9d3e0e1e2e3e4e5e6e7e8e9d4e0e1e2e3e4e5e6e7e8e9d5
e0e1e2e3e4e5e6e7e8e9d6e0e1e2e3e4e5e6e7e8e9d7e0e1e2e3e4e5e6e7e8e9d8e0e1e2e3e4e5e6e7e8e9d9e0e1e2e3e
4e5e6e7e8e9c2d0e0e1e2e3e4e5e6e7e8e9d1e0e1e2e3e4e5e6e7e8e9d2e0e1e2e3e4e5e6e7e8e9d3e0e1e2e3e4e5e6e7
e8e9d4e0e1e2e3e4e5e6e7e8e9d5e0e1e2e3e4e5e6d6d7d8d9c3d0d1d2d3d4d5d6d7d8d9c4d0d1d2d3d4d5d6d7d8d9c5d
0d1d2d3d4d5d6d7d8d9c6d0d1d2d3d4d5d6d7d8d9c7d0d1d2d3d4d5d6d7d8d9c8d0d1d2d3d4d5d6d7d8d9c9d0d1d2d3d4
d5d6d7d8d9bULCANUSdGAR FRACTION FIVE EIGHTHSvSIXTHSrOUR FIFTHSqONE EIGHTHuFIFTHuNINTHuSEVENTHvIXT
HuTENTHvHIRDqSEVEN EIGHTHSqTHREE EIGHTHSwFIFTHSrWO FIFTHSuTHIRDSqZERO THIRDS"),
  ('W', "
aWAFFLEcNCHO DIGIT EIGHTnFIVEoOURnNINEnONEnSEVENoIXnTHREEoWOnZEROhLETTER ApAqNrGpNGpUoBAoCAoDAoEp
NoFAoGAoHAoIpNGoJAoKApHAoLApLHAoMAoNApGApYAoOpNqGoPApHAoRAoSApHAoTApHApRApSAoUpENoVAoWAoYApIHoZAh
NGUN SIGNhTONE KOIpNImTUPpNIdING CRESCENT MOON SYMBOLhGIBBOUS MOON SYMBOLcRANG CITI CAPITAL LETTE
R AbcMbcNGbcTbbBUbbDAbbEbcNNbdYbbGAbbHARbcIYObcOLObdRRbbIIbbKObbNGAAbcUNGbbObcDDbbPUbbSIIbcSUUbbT
TEbbUCbcUbbVIYObbWIbbYAbcObcUbdJmDIGIT EIGHTsFIVEtOURsNINEsONEsSEVENtIXsTHREEtWOsZEROmNUMBER EIGH
TYtFIFTYuORTYtNINETYtSEVENTYuIXTYtTENuHIRTYuWENTYmOMmSMALL LETTER AbaMbaNGbaTzBUzDAzEbaNNbbYzGAzH
ARbaIYObaOLObbRRzIIzKOzNGAAbaUNGzObaDDzPUzSIIbaSUUzTTEzUCbaUzVIYOzWIzYAbaObaUbbJdNING SIGNcSTEBAS
KETcTCHdER BUFFALOgCLOSETgPOLOgWAVEfMELONcVE ARROW POINTING DIRECTLY LEFTbdRIGHTfDASHdING BLACK F
LAGhHAND SIGNhWHITE FLAGdY DASHfLINEgOW LINEfOVERLINEcXING CRESCENT MOON SYMBOLhGIBBOUS MOON SYMB
OLbEARY CAT FACEgFACEcDDINGdGE-TAILED RIGHTWARDS ARROWcIERSTRASS ELLIPTIC FUNCTIONdGHT LIFTERcS
T SYRIAC CROSSbHALEcEELf OF DHARMAfCHAIR SYMBOLcITE ARROW SHAFT WIDTH ONEyTWO THIRDSgBULLETgCHES
S BISHOPs ROTATED NINETY DEGREESbbTWO HUNDRED SEVENTY DEGREESmEQUIHOPPERw ROTATED NINETY DEGREESm
KINGq ROTATED NINETY DEGREESzTWO HUNDRED SEVENTY DEGREESnNIGHTs ROTATED FORTY-FIVE DEGREESbbNINET
Y DEGREESbbONE HUNDRED THIRTY-FIVE DEGREESbbTHREE HUNDRED FIFTEEN DEGREESbcWO HUNDRED SEVENTY DEG
REESbnTWENTY-FIVE DEGREESs-BISHOPtQUEENtROOKmPAWNq ROTATED NINETY DEGREESzTWO HUNDRED SEVENTY DEG
REESmQUEENr ROTATED NINETY DEGREESbaTWO HUNDRED SEVENTY DEGREESmROOKq ROTATED NINETY DEGREESzTW
O HUNDRED SEVENTY DEGREESmTURNED BISHOPtKINGuNIGHTtPAWNtQUEENtROOKhIRCLEm CONTAINING BLACK SMAL
L CIRCLEnWITH DOT RIGHTuWN ARROWsLOWER LEFT QUADRANTyRIGHT QUADRANTsTWO DOTSsUPPER LEFT QUADRANTy
RIGHT QUADRANThLUB SUIThONCAVE-SIDED DIAMONDbb WITH LEFTWARDS TICKbhRIGHTWARDS TICKgDIAMONDn CONT
AINING BLACK MEDIUM DIAMONDbfSMALL DIAMONDbfVERY SMALL DIAMONDoIN SQUAREoSUIToWITH CENTRED DOThOW
N POINTING BACKHAND INDEXuINDEXuLEFT HAND INDEXk-POINTING SMALL TRIANGLEuTRIANGLEhRAUGHTS KINGpMA
NgEXCLAMATION MARK ORNAMENTgFLAGk WITH HORIZONTAL MIDDLE BLACK STRIPEiORETTEjWERhOUR POINTED CUSP
tSTARhROWNING FACEgHARD SHELL FLOPPY DISKhEARTl SUITjVY CHECK MARKmSALTIRE WITH ROUNDED CORNERSiX
AGONhORIZONTAL ELLIPSEiURGLASSgLARGE SQUAREiTIN CROSShEFT LANE MERGElPOINTING BACKHAND INDEXuINDE
Xk-POINTING POINTERuSMALL TRIANGLEuTRIANGLEhOZENGE CONTAINING BLACK SMALL LOZENGEgMEDIUM DIAMONDn
LOZENGEnSMALL SQUAREoQUAREoTARhOON SELENAgNIBgPARALLELOGRAMhENNANTjTAGONgQUESTION MARK ORNAMENTgR
ECTANGLEhIGHT POINTING BACKHAND INDEXvINDEXl-POINTING PENTAGONwOINTERvSMALL TRIANGLEvTRIANGLEgSCI
SSORShESAME DOThHOGI PIECEhMALL LOZENGEmSQUAREnTARiILING FACEhPADE SUIThQUAREm BUTTONnCONTAININ
G BLACK MEDIUM SQUAREbeSMALL SQUAREbeVERY SMALL SQUAREnWITH CENTRE VERTICAL LINEsLEFTWARDS TICKtO
WER LEFT QUADRANTyRIGHT QUADRANTsRIGHTWARDS TICKtOUNDED CORNERSsUPPER LEFT QUADRANTyRIGHT QUADRAN
TsVERTICAL BISECTING LINEhTARhUNj BEHIND CLOUDw WITH RAINkWITH RAYSpSMALL CLOUDgTELEPHONEhOUCHTON
E TELEPHONEhRAPEZIUMiIANGLE CONTAINING SMALL WHITE TRIANGLEhWO-WAY LEFT WAY TRAFFICgUP POINTING B
ACKHAND INDEXsINDEXi-POINTING CHEVRONsSMALL TRIANGLEsTRIANGLEba WITH DOTgVERTICAL BARpELLIPSEpREC
TANGLEjY SMALL SQUAREf-FEATHERED RIGHTWARDS ARROWbIDE-HEADED DOWNWARDS BARB ARROWwHEAVY BARB ARRO
WwLIGHT BARB ARROWwMEDIUM BARB ARROWwVERY HEAVY BARB ARROWmLEFTWARDS BARB ARROWwHEAVY BARB ARROWw
LIGHT BARB ARROWwMEDIUM BARB ARROWwVERY HEAVY BARB ARROWmNORTH EAST BARB ARROWxHEAVY BARB ARROWxL
IGHT BARB ARROWxMEDIUM BARB ARROWxVERY HEAVY BARB ARROWsWEST BARB ARROWxHEAVY BARB ARROWxLIGHT BA
RB ARROWxMEDIUM BARB ARROWxVERY HEAVY BARB ARROWmRIGHTWARDS BARB ARROWxHEAVY BARB ARROWxLIGHT BAR
B ARROWxMEDIUM BARB ARROWxVERY HEAVY BARB ARROWmSOUTH EAST BARB ARROWxHEAVY BARB ARROWxLIGHT BAR
B ARROWxMEDIUM BARB ARROWxVERY HEAVY BARB ARROWsWEST BARB ARROWxHEAVY BARB ARROWxLIGHT BARB ARROW
xMEDIUM BARB ARROWxVERY HEAVY BARB ARROWmUPWARDS BARB ARROWuHEAVY BARB ARROWuLIGHT BARB ARROWuMED
IUM BARB ARROWuVERY HEAVY BARB ARROWcGGLY VERTICAL LINEcLTED FLOWERcND BLOWING FACEfCHIMEeOWdE GL
ASSdKING FACEcRED KEYBOARDbJbOLF FACEcMANf WITH BUNNY EARSfS BOOTShCLOTHEShHAThSANDALdENS SYMBOLc
N SIGNcODcRD JOINERfSEPARATOR MIDDLE DOTdLD MAPdMdRIED FACEbRAPPED PRESENTcEATH PRODUCTdNCHdSTLER
ScITING HAND"),
  ('X', "
aX IN A RECTANGLE BOXb-RAYbIANGQI BLACK CANNONpHARIOToELEPHANToGENERALoHORSEoMANDARINoSOLDIERiRE
D CANNONnHARIOTmELEPHANTmGENERALmHORSEmMANDARINmSOLDIERbOR"),
  ('Y', "
aYAWNING FACEbELLOW HEARTcZIDI COMBINING HAMZA MARKrMADDA MARKhHYPHENATION MARKhLETTER BEoCHHIMqI
MpIMoDADqLoELIFpTpWpYNoFAoGAFoHAYpHAoJAoKAFpHAFoLAMr WITH DOT ABOVEoMIMoNUNoOWoPEpHEoQAFoRApHAoSA
DpEpHINpINoTApHEoUMoVAq ALTERNATE FORMoWAWoXApHEYNoYOTr WITH CIRCUMFLEX ABOVEoZAqLpEbI RADICAL BB
UTmURlCHEmIPmUOPmYnPnTlDDURmUlGAmEPmGOPnUOmOTlHMOmXITnOPnUOlJJIEnUTnYmOlKEmITlLInEmYRlMImOPlNBIEm
YIPnOPmZUPlOPlPUTmYTlQOTlSHATnOPnURnYmSIlTATmUlVEPmURlWOlYITmOlZAmOTmUPnRmZIETdSYLLABLE AnPnTnXmB
AoPoToXnBApPpTpXoEpPpXoIpEqPqTqXpPpTpXoOpPpTpXoUpOqPqXpPpRqXpTpXoYpPpTpXnEoPoXnIoEpPpTpXoPoToXnOo
PoToXnUoOpPpXoPoRpXoToXnYoPoRpXoToXmCAoPoToXnEoPoXnHApPpTpXoEpPpTpXoOpPpTpXoUpOqPqTqXpPpRqXpXoYpP
pRqXpTpXnIoEpPpTpXoPoToXnOoPoToXnUoOpPpXoPoRpXoToXnYoPoRpXoToXmDAoPoToXnDApPpTpXoEpPpXoIpEqPqXpPp
TpXoOpPpTpXoUpOqPqXpPpRqXpTpXnEoPoXnIoEpPpXoPoToXnOoPoToXnUoOpXoPoRpXoToXmEnXmFAoPoToXnIoPoToXnOo
PoXnUoPoRpXoToXnYoPoToXmGAoPoToXnEoPoToXnGApPpTpXoEpPpTpXoIpEqPqXpTpXoOpPpTpXoUpOqPqTqXpPpRqXpTpX
nIoEpPpTpXoPoToXnOoPoToXnUoOpPpTpXoPoRpXoToXmHAoPoToXnEoPoXnIEpXoTnLApPpTpXoEpPpXoIpEqPqXpPpTpXoO
pPpXoUpOqPqXpPpRqXpTpXoYpPpRqXpTpXnMApPpTpXoIpEqPqXpPpTpXoOpPpTpXoUpOqPqXpPpRqXpTpXoYpPpRqXpXnNAp
PpTpXoEpPpXoIpEqPqTqXpPpTpXoOPpTpXoUOqXpTnOoPoToXnUOpPpTpXnXApPpTpXoEpPpXoIpEqPqTqXpPpTpXoOpPpTpX
oUOqPqTqXmInEoPoToXnPnToERATION MARKnXmJIoEpPpTpXoPoToXnJIpEqPqTqXpPpTpXoOpPpTpXoUpOqPqXpPpRqXpTp
XoYpPpTpXnOoPoToXnUoOpPpTpXoPoRpXoToXnYoPoRpXoToXmKAoPoToXnEoPoToXnIoEpPpXoPoToXnOoPoToXnUoOpPpXo
PoRpXoToXmLAoPoToXnEoPoXnIoEpPpTpXoPoToXnOoPoToXnUoOpPpTpXoPoRpXoToXnYoPoRpXoToXmMAoPoToXnEoXnGAp
PpTpXoEpPpXoIEqXoOpPpTpXoUpOqPqXpPpRqXpTpXnIoEpPpXoPoToXnOoPoToXnUoOpPpTpXoPoRpXoToXnYoPoToXmNAoP
oXnBApPpTpXoIpEqPqXpPpTpXoOpPpTpXoUpPpRqXpTpXoYpPpRqXpTpXnDApPpTpXoEpPpXoIpEqXpPpTpXoOpPpTpXoUpPp
RqXpTpXnEoPoXnGApPpTpXoEpPpXoIEqPqXoOpPpTpXoUOqTqXnIoEpPpXoPoToXnJIpEqPqTqXpPpTpXoOpPpTpXoUpOqXpP
pRqXpXoYpPpRqXpTpXnOoPoToXnRApPpTpXoEpPpTpXoOpPpXoUpPpRqXpTpXoYpPpRqXpTpXnUoOpPpXoPoRpXoToXnYIpEq
PqTqXpPpTpXoOpPpTpXoUpOqPqXpPpTpXnZApPpTpXoEpXoIpEqPqXpPpTpXoOPpXoUpOqXpPpRqXpXoYpPpRqXpTpXmOnPnT
nXmPAoPoToXnIoEpPpXoPoToXnOoPoToXnUoOpPpXoPoRpXoToXnYoPoRpXoToXmQIoEpPpTpXoPoToXnOoPoToXnUoOpPpTp
XoPoRpXoToXnYoPoRpXoToXmRAoPoToXnEoPoXnOoPoToXnRApXoEpPpTpXoOpPpTpXoUpOqXpPpRqXpTpXoYpPpRqXpTpXnU
oOpPpXoPoRpXoToXnYoPoRpXoToXmSAoPoToXnEoPoXnHApPpTpXoEpPpTpXoOpPpTpXoUpOqPqXpPpRqXpTpXoYpPpRqXpTp
XnIoEpPpXoPoToXnOoPoToXnSApPpTpXoEpPpXoIpEqPqXpPpTpXoOpPpTpXoUpPpTpXoYpPpRqXpTpXnUoOpPpXoPoRpXoTo
XnYoPoRpXoToXmTAoPoToXnEoPoXnIoEpPpXoPoToXnOoPoToXnUoOpPpTpXoPoRpXoToXmUOoPoXmVAoPoToXnEPoXnIoEpP
pTpXoPoToXnOoPoToXnUoPoRpXoToXnYoPoRpXoToXmWAoPoToXnEoPoXnOoPoXnUoOpPpXmXIoEpPpTpXoPoToXnOoPoToXn
UOpXnYoPoRpXoToXmYIoEpPpTpXoPoToXnOoPoToXnUoOpPpTpXoPoRpXoToXnYoPoRpXoToXmZAoPoToXnEoPoXnHApPpTpX
oEpPpTpXoOpPpTpXoUpOqPqXpPpRqXpTpXoYpPpRqXpTpXnIoEpPpXoPoToXnOoPoToXnUoOpPpXoPoRpXoToXnYoPoRpXoTo
XnZApPpTpXoEpPpXoIpEqPqTqXpPpTpXoOpPpXoUpPpRqXpXoYpPpRqXpTpXcN YANGbO-YO"),
  ('Z', "
aZ NOTATION BAG MEMBERSHIPlDOMAIN ANTIRESTRICTIONlLEFT BINDING BRACKETqIMAGE BRACKETlRANGE ANTIRE
STRICTIONmELATIONAL COMPOSITIONmIGHT BINDING BRACKETrIMAGE BRACKETlSCHEMA COMPOSITIONsPIPINGtROJE
CTIONmPOTlTYPE COLONbANABAZAR SQUARE CLOSING DOUBLE-LINED HEAD MARKzHEAD MARKtUSTER-FINAL LETTE
R LAbmRAbmVAbmYAzINITIAL LETTER RArFINAL CONSONANT MARKrINITIAL DOUBLE-LINED HEAD MARKzHEAD MARKr
LETTER -AyAyBAzHAyCAzHAyDAzDAbaHAzHAzZAbaHAyGAzHAyHAyJAyKAzHAzSSAyLAyMAyNAzGAzNAzYAyPAzHAyRAySAzH
AzSAyTAzHAzSAbaHAzTAbaHAyVAyYAyZAzHArMARK DOUBLE SHADwLONG TSHEGwSHADwTSHEGrSIGN ANUSVARAwCANDR
A WITH ORNAMENTbcBINDUbh WITH ORNAMENTwVIRAMAySARGAsUBJOINERrVOWEL LENGTH MARKxSIGN AIbdUbcEbcIbc
ObdEbcREVERSED IbcUbdEbEBRA FACEcRO WIDTH JOINERlNO-BREAK SPACEnN-JOINERlSPACEcUSbIPPER-MOUTH FAC
EbNAMENNY COMBINING ATTACHING VERTICAL OMETtLOWER TONAL RANGE INDICATORtMARK BORZAYAyCHASHKAbf PO
LNAYAzURVED OMETyDEMESTVENNY ZADERZHKAzVOETOCHIEyGORAZDO NIZKO ON LEFTbpRIGHTbmS KRYZHEM ON LEFTb
zRIGHTbgVYSOKOyKACHKAzRYZHbd ON LEFTzUPNAYAyLOMKAyMALO POVYSHE ON LEFTboRIGHTblS KHOKHLOM ON LEFT
bzRIGHTboRYZHEMbmTRANNOyNIZKO ON LEFTbhRIGHTbeS KRYZHEM ON LEFTbrRIGHTyOBLACHKOzNzTSECHKAyPODCHAS
HIEbi WITH VERTICAL STROKEbbVERTKAbaVYSHE ON LEFTbjRIGHTbgS KHOKHLOM ON LEFTbuRIGHTbjRYZHEMbhTRAN
NOyRAVNObaZSEKAySKOBAzOROCHYA NOZHKAzREDNE ON LEFTbiRIGHTzTRANNO MALO POVYSHEyTIKHAYAzOCHKAzSAT
A ON LEFTbhRIGHTbeS KRYZHEMyUDARKAyVYSOKO ON LEFTbiRIGHTbfS KHOKHLOM ON LEFTbtRIGHTbiRYZHEMyZADER
ZHKAzELObaVOKtTONAL RANGE MARK MRACHNObkSVETLObkTRESVETLOjNEUME CHASHKArELYUSTKApDEMESTVENNY KLYU
CHrRBITSAqOUBLE ZAPYATAYAqUDAqVA V CHELNUpFITApGOLUBCHIK BORZYzMRACHNYzSVETLYzTIKHYbaRESVETLYpKHA
MILOqLYUCHqOBYLAqRYUKu TIKHYsZHqUFISMApMECHIKv KLYUCHENEPOSTOYANNYbdPOVODNYbdVOYwPOVODNYpNEMKApOB
LAKOqSOKAu KLYUCHEVAYA NEPOSTOYANNAYAbhSVETLAYAwRYUKOVAYA SVETLAYAvSVETLAYAvTRESVETLAYApPALKArRAK
LITrUKqEREVODKAy NEPOSTOYANNAYAqODCHASHIErLKULIZMYpREVERSED CHELYUSTKAqOGpSKAMEYTSA DVOECHELNAY
A KLYUCHEVAYAbmNEPOSTOYANNAYAbmPROSTAYAbmSVETLAYAzKLYUCHENEPOSTOYANNAYAbgVAYA SVETLAYAblTIKHAYAzM
RACHNAYAzSVETLAYAzTIKHAYAbaRESVETLAYAqLOZHITIEy S KRYZHEMbbZAPYATOYzZAKRYTOEqTATYAv NEPOSTOYANNAY
AwS DVUMYA ZAPYATYMIyKRYZHEMbf I ZAPYATOYyROGOMyZAPYATOYbg I KRYZHEMbjPODCHASHIEMwZAKRYTAYAbf S Z
APYATOYrOPITSAx S OCHKOMyWITH SOROCHYA NOZHKArRELA DVOECHELNAYAbi KLYUCHEVAYAbfOKRYZHEVAYAbgPOVOD
NAYAbp KLYUCHEVAYAwGROMNAYAbe WITH SINGLE ZAPYATAYAbaOKRYZHEVAYAbl POVODNAYAbbPOVODNAYAbk WITH DO
UBLE ZAPYATAYAbqSINGLE ZAPYATAYAwKLYUCHENEPOSTOYANNAYAbdPOVODNAYAxRYUKOVAYAbg GROMNAYAbp WITH SIN
GLE ZAPYATAYAblOKRYZHEVAYAbw POVODNAYAbmPOVODNAYAbv WITH DOUBLE ZAPYATAYAcbSINGLE ZAPYATAYAbhPOVO
DNAYAbhTRYASKAzZHEVAYAwMRACHNOTIKHAYAwNEPOSTOYANNAYAwPOLUPOVODNAYAyVODNAYAxROSTAYAwTIKHAYA PUTNAY
AxRYASOGLASNAYAbcPOVODNAYAbcSTRELNAYApVRAKHIYA KLYUCHEVAYA MRACHNAYAbkPROSTAYAbkSVETLAYAbkTRESVET
LAYAyMRACHNAYAyPROSTAYAySVETLAYAyTRESVETLAYApZANOZHEKrPYATAYAqMEYTSAjPRIZNAK MODIFIER DIRECTION F
LIPbaKRYZHbaLEVEL-2bg3baROGbOMBIEbWJcNBSPdJcSP")]

end TypeLens.Text

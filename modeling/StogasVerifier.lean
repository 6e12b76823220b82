import StogasVerifier.Proofs.Recovery
import StogasVerifier.Proofs.ResponseGap
import StogasVerifier.Proofs.LogInclusion
import StogasVerifier.Proofs.HistoryIsolation
import StogasVerifier.Proofs.AdmissionAtomic
import StogasVerifier.Proofs.TurnLengths
import StogasVerifier.Proofs.RecordKeysOnce
import StogasVerifier.Proofs.ReleaseOrder
import StogasVerifier.Proofs.SubjectList
import StogasVerifier.Proofs.ArchiveBounds
import StogasVerifier.Proofs.BufferedSplit
import StogasVerifier.Proofs.ThresholdSigners
import StogasVerifier.Proofs.SubmissionReports
import StogasVerifier.Proofs.BootDocuments
import StogasVerifier.Proofs.SessionValidity
import StogasVerifier.Proofs.SetupAgreement
import StogasVerifier.Proofs.StartWindow
import StogasVerifier.Proofs.ExpiryOrder
import StogasVerifier.Proofs.RequestPacking
import StogasVerifier.Proofs.RequestOwnership

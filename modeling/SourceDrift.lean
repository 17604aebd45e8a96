import SourceDrift.Main
import SourceDrift.Proofs.LogName
import SourceDrift.Proofs.Store.Drift
import SourceDrift.Proofs.Store.Reload
import SourceDrift.Proofs.Sync.Agreement
import SourceDrift.Proofs.Json.Tokens
import SourceDrift.Proofs.Store.Encoding
import SourceDrift.Proofs.FileTree.Contents
import SourceDrift.Proofs.Finding.Canonical
import SourceDrift.Proofs.Finding.Distinct
import SourceDrift.Proofs.Json.Unambiguous
import SourceDrift.Proofs.Json.Order
import SourceDrift.Proofs.Finding.Content
import SourceDrift.Proofs.Finding.Lossless
import SourceDrift.Proofs.Host.Contents
import SourceDrift.Proofs.Store.Runs
import SourceDrift.Proofs.Store.Duplicates
import SourceDrift.Proofs.Store.Validated
import SourceDrift.Proofs.Store.Restart
import SourceDrift.Proofs.Store.Ingestion
import SourceDrift.Proofs.Store.Mirror
import SourceDrift.Proofs.Store.Shared
import SourceDrift.Proofs.Workspace.Batch
import SourceDrift.Proofs.Sync.Exact
import SourceDrift.Proofs.Store.Rejected
import SourceDrift.Proofs.Finding.Navigation
import SourceDrift.Proofs.Store.Spelling
import SourceDrift.Proofs.Sync.Recording
import SourceDrift.Proofs.Store.Loading
import SourceDrift.Proofs.Store.Atomic
import SourceDrift.Proofs.Analyzer.Verdict
import SourceDrift.Proofs.Finding.Grouping
import SourceDrift.Proofs.Workspace.Fallback
import SourceDrift.Proofs.Workspace.Listing
import SourceDrift.Proofs.Analyzer.Directories
import SourceDrift.Proofs.Finding.Shortened
import SourceDrift.Proofs.Finding.Sanitized
import SourceDrift.Proofs.Analyzer.Catalogue
import SourceDrift.Proofs.Workspace.Saved
import SourceDrift.Proofs.Finding.Cuts
import SourceDrift.Proofs.Cli.Numbers
import SourceDrift.Proofs.Finding.Dump
